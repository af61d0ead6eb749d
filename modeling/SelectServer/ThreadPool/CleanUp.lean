import Mathlib.Data.List.Range
import SelectServer.ThreadPool.Queue

/-!
# The clean-up of `threadpool_create`

When a thread cannot be created, `threadpool_create` gives the pool to `threadpool_destroy`,
which joins every element of the array of threads up to `thread_count`, whether a thread has
been stored in it or not, and frees the pool behind the last of them. So the pool is never
freed without a join of an element that no thread stands in (`clean_up_fails`).
-/

namespace SelectServer

/-! ## `threadpool_destroy` as a whole -/

/-- The results of the pthread calls of `threadpool_destroy`, and what the threads that have
left leave in `started`. -/
structure DestroyRun where
  lock : Bool
  region : DestroyCalls
  join : Nat → Bool
  startedLeft : Nat

/-- What `threadpool_destroy` leaves behind: its result, the elements of the array of threads
that it has joined, in order, and whether the pool is freed. -/
structure Destroyed where
  ret : Int
  joined : List Nat
  freed : Bool
  deriving DecidableEq, Repr

/-- The loop over the threads from element `i` on, `remaining` of them; an error ends it. -/
def joinThreads (join : Nat → Bool) : Nat → Nat → List Nat × Bool
  | 0, _ => ([], true)
  | remaining + 1, i =>
    if join i then
      let rest := joinThreads join remaining (i + 1)
      (i :: rest.1, rest.2)
    else ([i], false)

/-- `threadpool_free`: its result, and whether the memory is given back. -/
def threadpoolFree (started : Nat) : Int × Bool :=
  if 0 < started then (threadpoolInvalid, false) else (0, true)

/-- `threadpool_destroy` for a pool that is not NULL. The result of `threadpool_free` is
ignored. -/
def threadpoolDestroy {F A V : Type*} (calls : DestroyRun) (pool : Pool F A V) (flags : Nat) :
    Destroyed :=
  if calls.lock then
    let r := pool.destroyRegion calls.region flags
    if r.err = 0 then
      let joins := joinThreads calls.join pool.threadCount 0
      if joins.2 then ⟨0, joins.1, (threadpoolFree calls.startedLeft).2⟩
      else ⟨threadpoolThreadFailure, joins.1, false⟩
    else ⟨r.err, [], false⟩
  else ⟨threadpoolLockFailure, [], false⟩

/-- A run of the clean-up joins the threads that were created, and no other element of the
array, and the memory of the pool is given back. -/
structure CleansUp {F A V : Type*} (pool : Pool F A V) (r : Destroyed) : Prop where
  joined : r.joined = List.range pool.started
  freed : r.freed = true

section

variable {F A V : Type*}

/-! ## What is joined -/

theorem joinThreads_all {join : Nat → Bool} {remaining i : Nat}
    (h : (joinThreads join remaining i).2 = true) :
    (joinThreads join remaining i).1 = List.range' i remaining := by
  induction remaining generalizing i with
  | zero => rfl
  | succ remaining ih =>
    rw [joinThreads] at h ⊢
    by_cases hjoin : join i = true
    · rw [if_pos hjoin] at h ⊢
      show i :: (joinThreads join remaining (i + 1)).1 = _
      rw [ih h, List.range'_succ]
    · rw [if_neg hjoin] at h
      exact absurd h Bool.false_ne_true

/-- The loop goes on behind a thread that is joined. -/
theorem mem_joinThreads {join : Nat → Bool} {remaining i k : Nat} (hik : i ≤ k)
    (hk : k < i + remaining) (hjoin : ∀ j < k, join j = true) :
    k ∈ (joinThreads join remaining i).1 := by
  induction remaining generalizing i with
  | zero => omega
  | succ remaining ih =>
    rw [joinThreads]
    rcases hik.eq_or_lt with rfl | hlt
    · -- an element is joined whether or not this ends the loop
      split
      · exact List.mem_cons_self
      · exact List.mem_singleton_self i
    · rw [if_pos (hjoin i hlt)]
      exact List.mem_cons_of_mem i (ih hlt (by omega))

/-- A pool that is freed has been joined to the end of its array. -/
theorem joined_of_freed {calls : DestroyRun} {pool : Pool F A V} {flags : Nat}
    (h : (threadpoolDestroy calls pool flags).freed = true) :
    (threadpoolDestroy calls pool flags).joined = List.range pool.threadCount := by
  unfold threadpoolDestroy at h ⊢
  by_cases hlock : calls.lock = true
  · rw [if_pos hlock] at h ⊢
    by_cases herr : (pool.destroyRegion calls.region flags).err = 0
    · simp only [if_pos herr] at h ⊢
      by_cases hjoins : (joinThreads calls.join pool.threadCount 0).2 = true
      · rw [if_pos hjoins, joinThreads_all hjoins, List.range_eq_range']
      · rw [if_neg hjoins] at h
        exact absurd h Bool.false_ne_true
    · simp only [if_neg herr] at h
      exact absurd h Bool.false_ne_true
  · rw [if_neg hlock] at h
    exact absurd h Bool.false_ne_true

/-! ## Which pools are cleaned up -/

theorem startThreads_eq_cleanUp {pthreadCreate : Nat → Bool} {remaining : Nat}
    {pool pool' : Pool F A V} (h : startThreads pthreadCreate remaining pool = .cleanUp pool') :
    pool'.threadCount = pool.threadCount ∧ pool'.shutdown = pool.shutdown ∧
      pool'.started < pool.started + remaining := by
  induction remaining generalizing pool with
  | zero => simp [startThreads] at h
  | succ remaining ih =>
    rw [startThreads] at h
    by_cases hcreate : pthreadCreate pool.started = true
    · rw [if_pos hcreate] at h
      obtain ⟨hcount, hopen, hlt⟩ := ih h
      exact ⟨hcount, hopen, by simp only at hlt; omega⟩
    · rw [if_neg hcreate, Created.cleanUp.injEq] at h
      rw [← h]
      exact ⟨rfl, rfl, by omega⟩

/-- One of the threads of the pool has not been created. -/
theorem threadpoolCreate_eq_cleanUp {calls : CreateCalls F A V} {threadCount queueSize : Int}
    {pool : Pool F A V} (h : threadpoolCreate calls threadCount queueSize = .cleanUp pool) :
    pool.shutdown = 0 ∧ pool.started < pool.threadCount := by
  unfold threadpoolCreate at h
  split at h
  · obtain ⟨hcount, hopen, hlt⟩ := startThreads_eq_cleanUp h
    refine ⟨hopen, ?_⟩
    rw [hcount]
    simpa using hlt
  · cases h

/-- When nothing fails up to there, the element behind the threads that were created is joined,
which nothing has been stored in. -/
theorem uncreated_joined {calls : CreateCalls F A V} {threadCount queueSize : Int}
    {pool : Pool F A V} (h : threadpoolCreate calls threadCount queueSize = .cleanUp pool)
    {destroy : DestroyRun} (hlock : destroy.lock = true) (hregion : destroy.region = ⟨true, true⟩)
    (hjoin : ∀ i < pool.started, destroy.join i = true) :
    pool.started ∈ (threadpoolDestroy destroy pool 0).joined := by
  obtain ⟨hopen, hlt⟩ := threadpoolCreate_eq_cleanUp h
  have hmem := mem_joinThreads (Nat.zero_le pool.started) (by rwa [Nat.zero_add]) hjoin
  -- the pool has not been shut down before
  have herr : (pool.destroyRegion destroy.region 0).err = 0 := by
    simp [Pool.destroyRegion, hopen, hregion]
  rw [threadpoolDestroy, if_pos hlock]
  simp only [if_pos herr]
  split
  · exact hmem
  · exact hmem

end

/-- The clean-up behind a failed `pthread_create` never joins just the threads that there are
and gives the memory back, whatever its calls return. -/
theorem clean_up_fails {F A V : Type*} {calls : CreateCalls F A V} {threadCount queueSize : Int}
    {pool : Pool F A V} (h : threadpoolCreate calls threadCount queueSize = .cleanUp pool)
    (destroy : DestroyRun) : ¬ CleansUp pool (threadpoolDestroy destroy pool 0) := by
  rintro ⟨hjoined, hfreed⟩
  have hlt := (threadpoolCreate_eq_cleanUp h).2
  have hall := joined_of_freed hfreed
  -- the whole array has been joined, and it is longer than the threads that were created
  have hlength := congrArg List.length (hjoined.symm.trans hall)
  rw [List.length_range, List.length_range] at hlength
  omega

/-- All calls of `threadpool_create` succeed but the creation of thread `k`. -/
def createUpTo (k : Nat) : CreateCalls Nat Nat Nat :=
  { CreateCalls.ideal with pthreadCreate := fun i => i != k }

/-- No call of `threadpool_destroy` fails. -/
def DestroyRun.ideal : DestroyRun := ⟨true, ⟨true, true⟩, fun _ => true, 0⟩

theorem clean_up_fails_second : ∃ pool, threadpoolCreate (createUpTo 1) 3 4 = .cleanUp pool ∧
    ¬ CleansUp pool (threadpoolDestroy .ideal pool 0) := by
  exact ⟨_, rfl, clean_up_fails (rfl : threadpoolCreate (createUpTo 1) 3 4 = _) .ideal⟩

/-- Of three threads the second cannot be created, and all three elements are joined. -/
theorem clean_up_joins_all : ∃ pool, threadpoolCreate (createUpTo 1) 3 4 = .cleanUp pool ∧
    pool.started = 1 ∧ (threadpoolDestroy .ideal pool 0).joined = [0, 1, 2] ∧
      ¬ CleansUp pool (threadpoolDestroy .ideal pool 0) := by
  refine ⟨_, rfl, rfl, rfl, ?_⟩
  rintro ⟨hjoined, -⟩
  exact absurd hjoined (by decide)

end SelectServer
