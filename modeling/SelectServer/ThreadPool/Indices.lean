import SelectServer.ThreadPool.Run

/-!
# Indices of the pool

`threadpool_add` divides by `queue_size`, and stores into the task at `tail` the address of the
thread at `tail`: one index that runs modulo the size of the queue goes into both arrays. A
pool of no slots, which `threadpool_create` returns if `malloc(0)` does, is divided by zero, and
one of more slots than threads reaches behind the array of threads. All other pools are safe in
every run (`indices_in_bounds_iff`).
-/

namespace SelectServer

open Systems

/-! ## Operands that are not checked -/

/-- An operation of the source on an operand that it does not check. -/
inductive Access
  | modulus (n : Nat)
  | taskQueue (i : Nat)
  | threads (i : Nat)
  deriving DecidableEq, Repr

section

variable {F A V : Type*}

/-- The modulus is not zero, and the index lies in its array. -/
def Access.Safe (pool : Pool F A V) : Access → Prop
  | .modulus n => n ≠ 0
  | .taskQueue i => i < pool.queueSize
  | .threads i => i < pool.threadCount

/-- The region of `threadpool_add`. -/
def Pool.addAccesses (pool : Pool F A V) : List Access :=
  -- `next` is computed before the queue is looked at
  .modulus pool.queueSize ::
    if pool.count = pool.queueSize then []
    else if pool.shutdown ≠ 0 then []
    else [.taskQueue pool.tail, .threads pool.tail]

/-- The region of `threadpool_thread`. -/
def Pool.threadAccesses (pool : Pool F A V) : List Access :=
  match pool.threadRegion with
  | .wait | .leave => []
  | .take slot _ => [.taskQueue slot, .modulus pool.queueSize]

variable {n : Nat}

/-- The accesses of a step. Between the regions a worker keeps a pointer to its task, and takes
no index. -/
def PoolState.accesses (s : PoolState F A V n) : PoolLabel F A V n → List Access
  | .add _ _ _ => s.pool.addAccesses
  | .region _ => s.pool.threadAccesses
  | .join => (List.range s.pool.threadCount).map .threads
  | .wake _ | .load _ | .call _ _ | .store _ | .complete _ | .destroy _ => []

/-- If the step is made, all of its accesses are safe. -/
def SafeIndices (s : PoolState F A V n) (l : PoolLabel F A V n) : Prop :=
  ∀ s', s.step l = some s' → ∀ a ∈ s.accesses l, a.Safe s.pool

/-! ## Pools with as many threads as slots -/

/-- The ring is valid, and the two arrays have these sizes. -/
structure PoolState.Sized (threadCount queueSize : Nat) (s : PoolState F A V n) : Prop where
  valid : s.pool.Valid
  shutdown_le : s.pool.shutdown ≤ 1
  threadCount_eq : s.pool.threadCount = threadCount
  queueSize_eq : s.pool.queueSize = queueSize

variable {threadCount queueSize : Nat} {s s' : PoolState F A V n} {l : PoolLabel F A V n}

theorem PoolState.Step.sized (hstep : s.Step l s') (h : s.Sized threadCount queueSize) :
    s'.Sized threadCount queueSize := by
  obtain ⟨hvalid, hdown, hthreads, hqueue⟩ := h
  have hsame : ∀ {taskQueue : Nat → Task F A V} {shutdown started : Nat},
      Pool.Valid { s.pool with taskQueue, shutdown, started } :=
    ⟨hvalid.head_lt, hvalid.count_le, hvalid.tail_eq⟩
  cases hstep with
  | refuse => exact ⟨hvalid, hdown, hthreads, hqueue⟩
  | @add function argument woken hroom hopen hwakes =>
    have hlt := lt_of_le_of_ne hvalid.count_le hroom
    exact ⟨(Pool.append_spec hvalid hlt function argument).1, hdown, hthreads, hqueue⟩
  | wait hw hopen hcount => exact ⟨hvalid, hdown, hthreads, hqueue⟩
  | leave hw hleave => exact ⟨hsame, hdown, hthreads, hqueue⟩
  | take hw hopen hcount =>
    exact ⟨(Pool.removeHead_spec hvalid hcount).1, hdown, hthreads, hqueue⟩
  | wake hw => exact ⟨hvalid, hdown, hthreads, hqueue⟩
  | load hw => exact ⟨hvalid, hdown, hthreads, hqueue⟩
  | call hw => exact ⟨hvalid, hdown, hthreads, hqueue⟩
  | store hw => exact ⟨hsame, hdown, hthreads, hqueue⟩
  | complete hw => exact ⟨hsame, hdown, hthreads, hqueue⟩
  | destroy hopen hlive => exact ⟨hsame, le_rfl, hthreads, hqueue⟩
  | destroyAgain hclosed => exact ⟨hvalid, hdown, hthreads, hqueue⟩
  | join hjoining hleft => exact ⟨hvalid, hdown, hthreads, hqueue⟩

theorem PoolState.initial_sized (n : Nat) (hsize : 0 < queueSize) (junk : Nat → Task F A V) :
    (PoolState.initial n queueSize junk).Sized n queueSize :=
  ⟨Pool.initial_valid n hsize junk, Nat.zero_le _, rfl, rfl⟩

theorem PoolState.Sized.modulus_ne_zero (h : s.Sized threadCount queueSize) :
    s.pool.queueSize ≠ 0 := by
  have hlt := h.valid.head_lt
  omega

/-- `tail` is an index of the queue, and with no more slots than threads one of the threads. -/
theorem PoolState.Sized.addAccesses_safe (h : s.Sized threadCount queueSize)
    (hle : queueSize ≤ threadCount) : ∀ a ∈ s.pool.addAccesses, a.Safe s.pool := by
  have htail := h.valid.tail_lt
  have hthreads : s.pool.tail < s.pool.threadCount := by
    rw [h.threadCount_eq]
    rw [h.queueSize_eq] at htail
    omega
  intro a ha
  rcases List.mem_cons.mp ha with rfl | ha
  · exact h.modulus_ne_zero
  · split at ha
    · exact absurd ha List.not_mem_nil
    · split at ha
      · exact absurd ha List.not_mem_nil
      · simp only [List.mem_cons, List.not_mem_nil, or_false] at ha
        rcases ha with rfl | rfl
        · exact htail
        · exact hthreads

/-- A worker only uses `head`, which is an index of the queue. -/
theorem PoolState.Sized.threadAccesses_safe (h : s.Sized threadCount queueSize) :
    ∀ a ∈ s.pool.threadAccesses, a.Safe s.pool := by
  intro a ha
  rw [Pool.threadAccesses] at ha
  rcases Pool.threadRegion_cases h.shutdown_le with ⟨-, -, hregion⟩ | ⟨-, hregion⟩ |
    ⟨-, -, hregion⟩
  · simp only [hregion, List.not_mem_nil] at ha
  · simp only [hregion, List.not_mem_nil] at ha
  · simp only [hregion, List.mem_cons, List.not_mem_nil, or_false] at ha
    rcases ha with rfl | rfl
    · exact h.valid.head_lt
    · exact h.modulus_ne_zero

/-- With no more slots than threads every index lies in its array. -/
theorem PoolState.Sized.safeIndices (h : s.Sized threadCount queueSize)
    (hle : queueSize ≤ threadCount) (l : PoolLabel F A V n) : SafeIndices s l := by
  intro s' _ a ha
  cases l with
  | add function argument woken => exact h.addAccesses_safe hle a ha
  | region w => exact h.threadAccesses_safe a ha
  | join =>
    -- the loop of `threadpool_destroy` runs up to `thread_count`
    obtain ⟨i, hi, rfl⟩ := List.mem_map.mp ha
    exact List.mem_range.mp hi
  | wake w => exact absurd ha List.not_mem_nil
  | load w => exact absurd ha List.not_mem_nil
  | call w result => exact absurd ha List.not_mem_nil
  | store w => exact absurd ha List.not_mem_nil
  | complete w => exact absurd ha List.not_mem_nil
  | destroy flags => exact absurd ha List.not_mem_nil

/-! ## Adds alone -/

/-- The pool behind `k` adds to which no worker has come. -/
structure PoolState.Filled (k : Nat) (s : PoolState F A V n) : Prop where
  count_eq : s.pool.count = k
  head_eq : s.pool.head = 0
  shutdown_eq : s.pool.shutdown = 0
  awake : ∀ w, s.workers w = .awake
  free : (s.lockHeld || s.destroyed) = false

theorem PoolState.Filled.add {k : Nat} (h : s.Filled k) (hroom : k < s.pool.queueSize)
    (function : F) (argument : A) :
    ∃ s', s.step (.add function argument none) = some s' ∧ s'.Filled (k + 1) := by
  have hfull : ¬ s.pool.count = s.pool.queueSize := by
    rw [h.count_eq]
    exact hroom.ne
  have hopen : ¬ s.pool.shutdown ≠ 0 := not_not_intro h.shutdown_eq
  have hwakes : Wakes s.workers none = true := by simp [Wakes, h.awake, Worker.isAsleep]
  refine ⟨{ s with
    pool := s.pool.append function argument
    workers := signal s.workers none
    accepted := s.accepted ++ [(function, argument)] }, ?_, ?_⟩
  · simp [PoolState.step, h.free, threadpoolAdd, Pool.addRegion, hfull, h.shutdown_eq, hwakes]
  · exact ⟨congrArg (· + 1) h.count_eq, h.head_eq, h.shutdown_eq, h.awake, h.free⟩

theorem PoolState.Filled.run_adds (h : s.Filled 0) (hs : s.Sized threadCount queueSize)
    (function : F) (argument : A) {k : Nat} (hk : k ≤ queueSize) :
    ∃ s', run PoolState.step s (List.replicate k (.add function argument none)) = some s' ∧
      s'.Filled k ∧ s'.Sized threadCount queueSize := by
  induction k with
  | zero => exact ⟨s, rfl, h, hs⟩
  | succ k ih =>
    obtain ⟨s₁, hrun, hfilled, hsized⟩ := ih (by omega)
    have hroom : k < s₁.pool.queueSize := by
      rw [hsized.queueSize_eq]
      omega
    obtain ⟨s₂, hstep, hfilled₂⟩ := hfilled.add hroom function argument
    refine ⟨s₂, ?_, hfilled₂, (PoolState.step_cases hsized.shutdown_le hstep).sized hsized⟩
    rw [List.replicate_succ', run_append, hrun, Option.bind_some, run, hstep]
    rfl

theorem PoolState.initial_filled (n queueSize : Nat) (junk : Nat → Task F A V) :
    (PoolState.initial n queueSize junk).Filled 0 :=
  ⟨rfl, rfl, rfl, fun _ => rfl, rfl⟩

/-- The add into slot `k` of a pool of `k` threads reaches behind the array of threads. -/
theorem PoolState.Filled.not_safeIndices (h : s.Filled threadCount)
    (hs : s.Sized threadCount queueSize) (hlt : threadCount < queueSize) (function : F)
    (argument : A) : ¬ SafeIndices s (.add function argument none) := by
  intro hsafe
  have hroom : threadCount < s.pool.queueSize := by rwa [hs.queueSize_eq]
  obtain ⟨s', hstep, -⟩ := h.add hroom function argument
  have htail : s.pool.tail = threadCount := by
    rw [hs.valid.tail_eq, h.head_eq, h.count_eq, Nat.zero_add, Nat.mod_eq_of_lt hroom]
  have hfull : ¬ s.pool.count = s.pool.queueSize := by
    rw [h.count_eq]
    exact hroom.ne
  have hmem : Access.threads s.pool.tail ∈ s.accesses (.add function argument none) := by
    simp [PoolState.accesses, Pool.addAccesses, hfull, h.shutdown_eq]
  have hindex := hsafe s' hstep _ hmem
  rw [Access.Safe, htail, hs.threadCount_eq] at hindex
  exact Nat.lt_irrefl _ hindex

/-- An add to a pool without slots divides by zero. -/
theorem not_safeIndices_of_no_slots (n : Nat) (junk : Nat → Task F A V) (function : F)
    (argument : A) :
    ¬ SafeIndices (PoolState.initial n 0 junk) (.add function argument none) := by
  intro hsafe
  have hstep : (PoolState.initial n 0 junk).step (.add function argument none) =
      some (PoolState.initial n 0 junk) := by
    simp [PoolState.step, PoolState.initial, Pool.initial, threadpoolAdd, Pool.addRegion,
      threadpoolQueueFull]
  exact hsafe _ hstep (.modulus 0) List.mem_cons_self rfl

/-- Neither size of a pool that `threadpool_create` returns is negative. -/
theorem threadpoolCreate_sizes {calls : CreateCalls F A V} {threadCount queueSize : Int}
    {pool : Pool F A V} (h : threadpoolCreate calls threadCount queueSize = .pool pool) :
    0 ≤ threadCount ∧ 0 ≤ queueSize := by
  unfold threadpoolCreate at h
  split at h
  · rename_i hcalls
    exact ⟨hcalls.2.2.1.1, hcalls.2.2.2.1⟩
  · cases h

end

/-- In every run of a pool that `threadpool_create` returns, no modulus is zero and every index
lies in its array, exactly if the pool has slots, and not more of them than threads. -/
theorem indices_in_bounds_iff {F A V : Type*} [Inhabited F] [Inhabited A]
    {calls : CreateCalls F A V} {threadCount queueSize : Int} {pool : Pool F A V}
    (h : threadpoolCreate calls threadCount queueSize = .pool pool) :
    (∀ ls, Meets PoolState.step SafeIndices ({ PoolState.initial threadCount.toNat
      queueSize.toNat calls.junk with pool := pool } : PoolState F A V threadCount.toNat) ls) ↔
      0 < queueSize ∧ queueSize ≤ threadCount := by
  obtain ⟨hthreads, hqueue⟩ := threadpoolCreate_sizes h
  obtain rfl := threadpoolCreate_eq_pool h
  show (∀ ls, Meets PoolState.step SafeIndices
    (PoolState.initial threadCount.toNat queueSize.toNat calls.junk) ls) ↔ _
  constructor
  · intro hall
    have hpos : 0 < queueSize := by
      by_contra hn
      have hsafe := (hall [.add default default none]).1
      rw [show queueSize.toNat = 0 by omega] at hsafe
      exact not_safeIndices_of_no_slots _ _ _ _ hsafe
    refine ⟨hpos, ?_⟩
    by_contra hgt
    -- as many adds as there are threads, and another one
    obtain ⟨s, hrun, hfilled, hsized⟩ :=
      (PoolState.initial_filled threadCount.toNat queueSize.toNat calls.junk).run_adds
        (PoolState.initial_sized _ (by omega) calls.junk) default default
        (k := threadCount.toNat) (by omega)
    have hmeets := hall (List.replicate threadCount.toNat (.add default default none) ++
      [.add default default none])
    have hsafe := ((meets_append_iff.mp hmeets).2 s hrun).1
    exact hfilled.not_safeIndices hsized (by omega) default default hsafe
  · rintro ⟨hpos, hle⟩
    have hslots : 0 < queueSize.toNat := by omega
    have hsized := PoolState.initial_sized threadCount.toNat hslots calls.junk
    refine meets_of_invariant (fun s l s' hs hstep => ?_) (fun s l hs => ?_) hsized
    · exact (PoolState.step_cases hs.shutdown_le hstep).sized hs
    · exact hs.safeIndices (by omega) l

/-- Two threads and one slot. -/
theorem indices_in_bounds_one_slot : ∃ pool, threadpoolCreate .ideal 2 1 = .pool pool ∧
    ∀ ls, Meets PoolState.step SafeIndices
      ({ PoolState.initial 2 1 CreateCalls.ideal.junk with pool := pool } : PoolState Nat Nat Nat 2)
        ls := by
  obtain ⟨pool, hpool⟩ : ∃ pool, threadpoolCreate .ideal 2 1 = .pool pool := ⟨_, rfl⟩
  exact ⟨pool, hpool, (indices_in_bounds_iff hpool).mpr ⟨by decide, by decide⟩⟩

/-- Of a pool without slots the first add divides by zero; of a pool of one thread and two
slots the second add takes the address of a thread that does not exist. -/
theorem indices_out_of_bounds :
    (∃ pool, threadpoolCreate .ideal 1 0 = .pool pool ∧
      ¬ ∀ ls, Meets PoolState.step SafeIndices
        ({ PoolState.initial 1 0 CreateCalls.ideal.junk with pool := pool } :
          PoolState Nat Nat Nat 1) ls) ∧
    ∃ pool, threadpoolCreate .ideal 1 2 = .pool pool ∧
      ¬ ∀ ls, Meets PoolState.step SafeIndices
        ({ PoolState.initial 1 2 CreateCalls.ideal.junk with pool := pool } :
          PoolState Nat Nat Nat 1) ls := by
  refine ⟨⟨_, rfl, fun hall => ?_⟩, _, rfl, fun hall => ?_⟩
  · have hsafe := (hall [.add 1 10 none]).1 _ rfl (.modulus 0) (by decide)
    exact hsafe rfl
  · have hrest := (hall [.add 1 10 none, .add 2 20 none]).2 _ rfl
    have hindex := hrest.1 _ rfl (.threads 1) (by decide)
    exact Nat.lt_irrefl 1 hindex

end SelectServer
