import SelectServer.Systems.Ring
import SelectServer.Systems.Transition
import SelectServer.ThreadPool.Pool

/-!
# The ring of the pool is a bounded queue

The slots from `head` on hold the pending tasks, oldest first (`Pool.pending`). The regions
under the lock keep the ring valid, and act on the pending tasks as on a bounded FIFO queue
(`regionStep_refines`).
-/

namespace SelectServer

open Systems

section

variable {F A V : Type*}

/-! ## Valid pools -/

/-- The function and the argument of a task. -/
def Task.job (task : Task F A V) : F × A := (task.function, task.argument)

/-- The pending tasks, the oldest first. -/
def Pool.pending (pool : Pool F A V) : List (F × A) :=
  window pool.queueSize (Task.job ∘ pool.taskQueue) pool.head pool.count

/-- The two indices lie in the array, and the tail is `count` slots behind the head. -/
structure Pool.Valid (pool : Pool F A V) : Prop where
  head_lt : pool.head < pool.queueSize
  count_le : pool.count ≤ pool.queueSize
  tail_eq : pool.tail = (pool.head + pool.count) % pool.queueSize

theorem Pool.Valid.tail_lt {pool : Pool F A V} (h : pool.Valid) :
    pool.tail < pool.queueSize := by
  have := h.head_lt
  rw [h.tail_eq]
  exact Nat.mod_lt _ (by omega)

@[simp] theorem Pool.length_pending (pool : Pool F A V) : pool.pending.length = pool.count :=
  length_window

/-- The pool that `threadpool_create` returns. -/
def Pool.initial (threadCount queueSize : Nat) (junk : Nat → Task F A V) : Pool F A V where
  taskQueue := junk
  threadCount := threadCount
  queueSize := queueSize
  head := 0
  tail := 0
  count := 0
  shutdown := 0
  started := threadCount

theorem startThreads_eq_pool {pthreadCreate : Nat → Bool} {remaining : Nat}
    {pool pool' : Pool F A V} (h : startThreads pthreadCreate remaining pool = .pool pool') :
    pool' = { pool with started := pool.started + remaining } := by
  induction remaining generalizing pool with
  | zero =>
    simp only [startThreads, Created.pool.injEq] at h
    rw [← h, Nat.add_zero]
  | succ remaining ih =>
    simp only [startThreads] at h
    split at h
    · rw [ih h]
      simp only [Pool.mk.injEq, true_and]
      omega
    · simp at h

theorem threadpoolCreate_eq_pool {calls : CreateCalls F A V} {threadCount queueSize : Int}
    {pool : Pool F A V} (h : threadpoolCreate calls threadCount queueSize = .pool pool) :
    pool = Pool.initial threadCount.toNat queueSize.toNat calls.junk := by
  unfold threadpoolCreate at h
  split at h
  · rw [startThreads_eq_pool h]
    simp [Pool.initial]
  · simp at h

theorem Pool.initial_valid (threadCount : Nat) {queueSize : Nat} (h : 0 < queueSize)
    (junk : Nat → Task F A V) : (Pool.initial threadCount queueSize junk).Valid :=
  ⟨h, Nat.zero_le _, by simp [Pool.initial]⟩

/-! ## What the regions do to the queue -/

/-- Filling the slot at the tail of a pool that is not full appends to the queue. -/
theorem Pool.append_spec {pool : Pool F A V} (h : pool.Valid) (hroom : pool.count < pool.queueSize)
    (function : F) (argument : A) :
    (pool.append function argument).Valid ∧
      (pool.append function argument).pending = pool.pending ++ [(function, argument)] := by
  refine ⟨⟨h.head_lt, hroom, ?_⟩, ?_⟩
  · simp only [Pool.append, h.tail_eq, Nat.mod_add_mod, Nat.add_assoc]
  · -- of the task that is stored, the queue sees the job
    have hjob : Task.job ∘ Function.update pool.taskQueue pool.tail
        ⟨function, argument, none, some pool.tail, false⟩ =
        Function.update (Task.job ∘ pool.taskQueue) pool.tail (function, argument) :=
      Function.comp_update _ _ _ _
    simp only [Pool.pending, Pool.append, hjob]
    rw [h.tail_eq, window_push hroom]

theorem Pool.job_removeHead (pool : Pool F A V) :
    Task.job ∘ pool.removeHead.taskQueue = Task.job ∘ pool.taskQueue := by
  funext k
  by_cases hk : k = pool.head <;> simp [Pool.removeHead, Task.job, Function.update, hk]

/-- Taking the slot at the head out of a pool that is not empty takes the oldest task. -/
theorem Pool.removeHead_spec {pool : Pool F A V} (h : pool.Valid) (hcount : 0 < pool.count) :
    pool.removeHead.Valid ∧
      pool.pending = (pool.removeHead.taskQueue pool.head).job :: pool.removeHead.pending := by
  have hlt := h.head_lt
  have hle := h.count_le
  obtain ⟨count, hcount'⟩ := Nat.exists_eq_succ_of_ne_zero hcount.ne'
  refine ⟨⟨Nat.mod_lt _ (by omega), ?_, ?_⟩, ?_⟩
  · simp only [Pool.removeHead]
    omega
  · simp only [Pool.removeHead, h.tail_eq, Nat.mod_add_mod, hcount']
    congr 1
    omega
  · have hjob := pool.job_removeHead
    have hhead : (pool.removeHead.taskQueue pool.head).job =
        (Task.job ∘ pool.taskQueue) pool.head := congrFun hjob pool.head
    rw [hhead, Pool.pending, Pool.pending, hjob, hcount']
    simp only [Pool.removeHead, hcount', Nat.succ_eq_add_one, Nat.add_sub_cancel]
    exact window_pop hlt

/-- The three results of `threadpool_add` when its pthread calls succeed. -/
theorem Pool.addRegion_cases (pool : Pool F A V) (function : F) (argument : A) :
    (pool.count = pool.queueSize ∧
      pool.addRegion true function argument = ⟨threadpoolQueueFull, none, pool⟩) ∨
    (pool.count ≠ pool.queueSize ∧ pool.shutdown ≠ 0 ∧
      pool.addRegion true function argument = ⟨threadpoolShutdown, none, pool⟩) ∨
    (pool.count ≠ pool.queueSize ∧ pool.shutdown = 0 ∧
      pool.addRegion true function argument =
        ⟨0, some pool.tail, pool.append function argument⟩) := by
  unfold Pool.addRegion
  by_cases hfull : pool.count = pool.queueSize
  · exact Or.inl ⟨hfull, by rw [if_pos hfull]⟩
  · by_cases hdown : pool.shutdown = 0
    · exact Or.inr (Or.inr ⟨hfull, hdown, by simp [hfull, hdown]⟩)
    · exact Or.inr (Or.inl ⟨hfull, hdown, by simp [hfull, hdown]⟩)

/-- A worker waits for an open and empty queue, leaves a closed one, and takes the task at
the head otherwise. -/
theorem Pool.threadRegion_cases {pool : Pool F A V} (hdown : pool.shutdown ≤ 1) :
    (pool.shutdown = 0 ∧ pool.count = 0 ∧ pool.threadRegion = .wait) ∨
    (pool.shutdown = 1 ∧ pool.threadRegion = .leave) ∨
    (pool.shutdown = 0 ∧ 0 < pool.count ∧
      pool.threadRegion = .take pool.head pool.removeHead) := by
  unfold Pool.threadRegion threadpoolGraceful
  by_cases hzero : pool.shutdown = 0
  · by_cases hcount : pool.count = 0
    · exact Or.inl ⟨hzero, hcount, by simp [hzero, hcount]⟩
    · exact Or.inr (Or.inr ⟨hzero, by omega, by simp [hzero, hcount]⟩)
  · have hone : pool.shutdown = 1 := by omega
    exact Or.inr (Or.inl ⟨hone, by simp [hone]⟩)

/-- Both ways of destroying a pool request the same shutdown. -/
theorem Pool.destroyRegion_eq (pool : Pool F A V) (flags : Nat) :
    pool.destroyRegion ⟨true, true⟩ flags =
      if pool.shutdown ≠ 0 then ⟨threadpoolShutdown, true, pool⟩
      else ⟨0, false, { pool with shutdown := 1 }⟩ := by
  simp [Pool.destroyRegion, threadpoolGraceful]

/-! ## Refinement -/

/-- A region that a thread enters. -/
inductive RegionOp (F A : Type*)
  | add (function : F) (argument : A)
  | thread
  | destroy (flags : Nat)

/-- What a region comes to: the result of an add, a worker that waits, leaves or takes a
task, the result of a destroy. -/
inductive RegionOut (F A : Type*)
  | added (ret : Int)
  | waits
  | leaves
  | took (job : F × A)
  | destroyed (err : Int)
  deriving DecidableEq, Repr

/-- The regions of the pool, with pthread calls that succeed. -/
def Pool.regionStep (pool : Pool F A V) : RegionOp F A → RegionOut F A × Pool F A V
  | .add function argument =>
    let r := threadpoolAdd ⟨true, true, true⟩ pool (some function) argument
    (.added r.ret, r.pool)
  | .thread =>
    match pool.threadRegion with
    | .wait => (.waits, pool)
    | .leave => (.leaves, pool)
    | .take slot pool' => (.took (pool'.taskQueue slot).job, pool')
  | .destroy flags =>
    let r := pool.destroyRegion ⟨true, true⟩ flags
    (.destroyed r.err, r.pool)

/-- What the regions are for: a bounded FIFO queue that can be closed. -/
def queueStep {cap : Nat} (q : BoundedQueue (F × A) cap) :
    RegionOp F A → RegionOut F A × BoundedQueue (F × A) cap
  | .add function argument =>
    if q.items.length = cap then (.added threadpoolQueueFull, q)
    else
      match q.push (function, argument) with
      | some q' => (.added 0, q')
      | none => (.added threadpoolShutdown, q)
  | .thread =>
    if q.closed then (.leaves, q)
    else
      match q.pop with
      | some (job, q') => (.took job, q')
      | none => (.waits, q)
  | .destroy _ =>
    if q.closed then (.destroyed threadpoolShutdown, q) else (.destroyed 0, q.close)

/-- The pool represents the queue: its ring is valid and holds the items, and the shutdown
flag says whether the queue is closed. -/
structure Represents {cap : Nat} (pool : Pool F A V) (q : BoundedQueue (F × A) cap) : Prop where
  valid : pool.Valid
  size : pool.queueSize = cap
  items : pool.pending = q.items
  closed : pool.shutdown = if q.closed then 1 else 0

theorem Represents.shutdown_le {cap : Nat} {pool : Pool F A V} {q : BoundedQueue (F × A) cap}
    (h : Represents pool q) : pool.shutdown ≤ 1 := by
  rw [h.closed]
  split <;> omega

/-- Every region of the pool acts as the queue does. -/
theorem regionStep_refines {cap : Nat} {pool : Pool F A V} {q : BoundedQueue (F × A) cap}
    (op : RegionOp F A) (h : Represents pool q) :
    (pool.regionStep op).1 = (queueStep q op).1 ∧
      Represents (pool.regionStep op).2 (queueStep q op).2 := by
  -- the queue is full, empty and closed when the pool is
  have hlength : q.items.length = pool.count := by rw [← h.items, Pool.length_pending]
  have hclosed : q.closed = true ↔ pool.shutdown ≠ 0 := by
    rw [h.closed]
    cases q.closed <;> simp
  cases op with
  | add function argument =>
    -- full, closed, or room for one more
    simp only [Pool.regionStep, threadpoolAdd, if_true, queueStep, hlength]
    rcases pool.addRegion_cases function argument with ⟨hfull, hadd⟩ | ⟨hfull, hdown, hadd⟩ |
      ⟨hfull, hdown, hadd⟩
    · rw [hadd, if_pos (hfull.trans h.size)]
      exact ⟨rfl, h⟩
    · have hno : ¬ (q.items.length < cap ∧ q.closed = false) := by simp [hclosed.mpr hdown]
      rw [hadd, if_neg (by rw [← h.size]; exact hfull), BoundedQueue.push_of_not_room _ hno]
      exact ⟨rfl, h⟩
    · have hle := h.valid.count_le
      have hroom : pool.count < pool.queueSize := by omega
      have hopen : q.closed = false := by
        rw [← Bool.not_eq_true, hclosed]
        simpa using hdown
      obtain ⟨q', hpush, hitems, hclosed'⟩ := BoundedQueue.push_of_room (q := q)
        (function, argument) ⟨by rw [hlength, ← h.size]; exact hroom, hopen⟩
      obtain ⟨hvalid, hpending⟩ := Pool.append_spec h.valid hroom function argument
      rw [hadd, if_neg (by rw [← h.size]; exact hfull), hpush]
      exact ⟨rfl, hvalid, h.size, by rw [hpending, h.items, hitems],
        by rw [hclosed']; exact h.closed⟩
  | thread =>
    -- empty, closed, or a task to take
    simp only [Pool.regionStep, queueStep]
    rcases Pool.threadRegion_cases h.shutdown_le with ⟨hdown, hcount, hregion⟩ |
      ⟨hdown, hregion⟩ | ⟨hdown, hcount, hregion⟩
    · have hopen : ¬ q.closed = true := by simp [hclosed, hdown]
      have hnil : q.items = [] := List.length_eq_zero_iff.mp (by omega)
      rw [hregion, if_neg hopen, BoundedQueue.pop_of_nil hnil]
      exact ⟨rfl, h⟩
    · rw [hregion, if_pos (hclosed.mpr (by omega))]
      exact ⟨rfl, h⟩
    · have hopen : ¬ q.closed = true := by simp [hclosed, hdown]
      obtain ⟨hvalid, hpending⟩ := Pool.removeHead_spec h.valid hcount
      obtain ⟨q', hpop, hitems, hclosed'⟩ := BoundedQueue.pop_of_cons
        (h.items.symm.trans hpending)
      rw [hregion, if_neg hopen, hpop]
      exact ⟨rfl, hvalid, h.size, hitems.symm, by rw [hclosed']; exact h.closed⟩
  | destroy flags =>
    simp only [Pool.regionStep, queueStep, Pool.destroyRegion_eq]
    by_cases hdown : pool.shutdown = 0
    · have hopen : ¬ q.closed = true := by simp [hclosed, hdown]
      rw [if_neg (by simp [hdown]), if_neg hopen]
      exact ⟨rfl, ⟨h.valid.head_lt, h.valid.count_le, h.valid.tail_eq⟩, h.size, h.items, rfl⟩
    · rw [if_pos hdown, if_pos (hclosed.mpr hdown)]
      exact ⟨rfl, h⟩

/-- From `threadpool_create` on, every sequence of regions acts as the bounded queue does:
same results, a valid ring that holds the items, both indices below the queue size. An add
succeeds exactly when there is room and no shutdown was requested, and then appends;
otherwise it changes nothing. A worker takes the oldest task. -/
theorem regions_refine_queue (calls : CreateCalls F A V) (threadCount queueSize : Int)
    (hsize : 1 ≤ queueSize) (created : Pool F A V)
    (hcreate : threadpoolCreate calls threadCount queueSize = .pool created)
    (ops : List (RegionOp F A)) :
    let r := trace Pool.regionStep created ops
    let q := trace queueStep (BoundedQueue.empty (F × A) queueSize.toNat) ops
    (r.1 = q.1 ∧ Represents r.2 q.2 ∧ r.2.head < queueSize.toNat ∧ r.2.tail < queueSize.toNat) ∧
      (∀ function argument,
        let added := threadpoolAdd ⟨true, true, true⟩ r.2 (some function) argument
        (added.ret = 0 ↔ r.2.pending.length < queueSize.toNat ∧ r.2.shutdown = 0) ∧
        (added.ret = 0 → added.pool.pending = r.2.pending ++ [(function, argument)]) ∧
        (added.ret ≠ 0 → (added.ret = threadpoolQueueFull ∨ added.ret = threadpoolShutdown) ∧
          added.pool = r.2)) ∧
      ∀ slot pool', r.2.threadRegion = .take slot pool' →
        r.2.pending = (pool'.taskQueue slot).job :: pool'.pending := by
  intro r q
  obtain rfl := threadpoolCreate_eq_pool hcreate
  have hinit : Represents (Pool.initial threadCount.toNat queueSize.toNat calls.junk)
      (BoundedQueue.empty (F × A) queueSize.toNat) :=
    ⟨Pool.initial_valid _ (by omega) _, rfl, rfl, rfl⟩
  obtain ⟨hout, hrel⟩ := trace_refines (fun _ _ op h => regionStep_refines op h) hinit ops
  have hsize' : r.2.queueSize = queueSize.toNat := hrel.size
  refine ⟨⟨hout, hrel, hsize' ▸ hrel.valid.head_lt, hsize' ▸ hrel.valid.tail_lt⟩,
    fun function argument => ?_, fun slot pool' htake => ?_⟩
  · have hle := hrel.valid.count_le
    simp only [threadpoolAdd, if_true, Pool.length_pending, ← hsize']
    rcases r.2.addRegion_cases function argument with ⟨hfull, hadd⟩ | ⟨hfull, hdown, hadd⟩ |
      ⟨hfull, hdown, hadd⟩
    · simp [hadd, hfull, threadpoolQueueFull]
    · simp [hadd, hdown, threadpoolShutdown]
    · have hroom : r.2.count < r.2.queueSize := by
        have : r.2.count ≤ r.2.queueSize := hle
        omega
      simpa [hadd, hdown, hroom] using (Pool.append_spec hrel.valid hroom function argument).2
  · rcases Pool.threadRegion_cases hrel.shutdown_le with ⟨-, -, hregion⟩ | ⟨-, hregion⟩ |
      ⟨-, hcount, hregion⟩
    · simp [r, hregion] at htake
    · simp [r, hregion] at htake
    · have heq : ThreadRegion.take r.2.head r.2.removeHead = .take slot pool' :=
        hregion.symm.trans htake
      simp only [ThreadRegion.take.injEq] at heq
      obtain ⟨rfl, rfl⟩ := heq
      exact (Pool.removeHead_spec hrel.valid hcount).2

end

/-- Two adds and a worker on one slot: the second add finds the ring full. -/
theorem regions_refine_queue_one_slot :
    ∃ created : Pool Nat Nat Nat,
      threadpoolCreate ⟨true, true, true, true, true, fun _ => true,
        fun _ => ⟨0, 0, none, none, false⟩⟩ 1 1 = .pool created ∧
      (trace Pool.regionStep created [.add 1 10, .add 2 20, .thread]).1 =
        [.added 0, .added threadpoolQueueFull, .took (1, 10)] := by
  obtain ⟨created, hcreate⟩ : ∃ created : Pool Nat Nat Nat,
      threadpoolCreate ⟨true, true, true, true, true, fun _ => true,
        fun _ => ⟨0, 0, none, none, false⟩⟩ 1 1 = .pool created := ⟨_, rfl⟩
  obtain ⟨⟨hout, -⟩, -⟩ := regions_refine_queue _ 1 1 le_rfl created hcreate
    [.add 1 10, .add 2 20, .thread]
  exact ⟨created, hcreate, hout.trans (by decide)⟩

end SelectServer
