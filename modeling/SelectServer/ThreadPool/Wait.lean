import SelectServer.ThreadPool.Execution

/-!
# One producer that waits

`handle_connections` adds one task at a time and calls `threadpool_wait` on it before the
next add. The task it waits for is a slot of the ring, which later tasks reuse. At most one
task is under way then, and the slot, its mark and its result belong to that task until the
wait has read the result (`Handed`).
-/

namespace SelectServer

open Systems

/-! ## The producer -/

/-- Where the producer is. -/
inductive Producer (F A : Type*)
  /-- before an add -/
  | idle
  /-- in `threadpool_wait` on a slot, for the job of its last add -/
  | waiting (slot : Nat) (job : F × A)
  /-- behind the loop of `threadpool_wait`, the result not yet read -/
  | reading (slot : Nat) (job : F × A)
  /-- an add has failed, and `handle_connections` ends -/
  | stopped
  deriving DecidableEq, Repr

/-- A pool with its producer. `asleep` is set while the producer sleeps on the `task_complete`
of the task it waits for. `returns` are the waits that have returned, each with the job of the
add before it. -/
structure ProducerState (F A V : Type*) (n : Nat) where
  state : PoolState F A V n
  producer : Producer F A
  asleep : Bool
  returns : List ((F × A) × Option V)

/-- A step of the producer or of a worker. Nobody destroys the pool. -/
inductive ProducerLabel (F A V : Type*) (n : Nat)
  | add (function : F) (argument : A) (woken : Option (Fin n))
  /-- a round of the loop of `threadpool_wait` -/
  | wait
  /-- a spurious wake-up of the producer -/
  | rouse
  | read
  | work (l : PoolLabel F A V n)

section

variable {F A V : Type*} {n : Nat}

/-- The worker that makes a step. -/
def PoolLabel.worker : PoolLabel F A V n → Option (Fin n)
  | .region w | .wake w | .load w | .call w _ | .store w | .complete w => some w
  | .add _ _ _ | .destroy _ | .join => none

/-- The step signals the `task_complete` of the task the producer waits for. -/
def ProducerState.signalled (s : ProducerState F A V n) : PoolLabel F A V n → Bool
  | .complete w =>
    match s.state.workers w, s.producer with
    | .stored slot, .waiting slot' _ => slot = slot'
    | _, _ => false
  | _ => false

/-- The wait for a task has returned. -/
def ProducerState.returned (s : ProducerState F A V n) (job : F × A) (result : Option V) :
    ProducerState F A V n :=
  { s with producer := .idle, returns := s.returns ++ [(job, result)] }

/-- The step function of a pool with one producer. -/
def ProducerState.step (s : ProducerState F A V n) :
    ProducerLabel F A V n → Option (ProducerState F A V n)
  | .add function argument woken =>
    match s.producer with
    | .idle =>
      let r := threadpoolAdd ⟨true, true, true⟩ s.state.pool (some function) argument
      (s.state.step (.add function argument woken)).map fun state =>
        { s with
          state := state
          producer :=
            match r.taskOut with
            | some slot => if r.ret = 0 then .waiting slot (function, argument) else .stopped
            | none => .stopped }
    | _ => none
  | .wait =>
    match s.producer with
    | .waiting slot job =>
      -- in `pthread_cond_wait` there is no round
      if s.asleep then none
      else
        match threadpoolWait (s.state.pool.taskQueue slot) with
        | .null => some (s.returned job none)
        | .finished => some { s with producer := .reading slot job }
        | .blocked => some { s with asleep := true }
    | _ => none
  | .rouse => if s.asleep then some { s with asleep := false } else none
  | .read =>
    match s.producer with
    | .reading slot job => some (s.returned job (s.state.pool.taskQueue slot).result)
    | _ => none
  | .work l =>
    if l.worker.isSome then
      (s.state.step l).map fun state =>
        { s with state := state, asleep := s.asleep && !s.signalled l }
    else none

/-- The state in which `threadpool_create` returns the pool. -/
def ProducerState.initial (n queueSize : Nat) (junk : Nat → Task F A V) :
    ProducerState F A V n where
  state := PoolState.initial n queueSize junk
  producer := .idle
  asleep := false
  returns := []

/-! ## The task under way -/

/-- A worker without a task. -/
def Worker.isFree : Worker F A V → Bool
  | .asleep | .awake => true
  | _ => false

/-- What a worker that has the task of a slot knows of its job, and what has been called. -/
def Holds (task : Task F A V) (slot : Nat) (job : F × A)
    (returns calls : List ((F × A) × Option V)) : Worker F A V → Prop
  | .claimed slot' => slot' = slot ∧ task.job = job ∧ calls = returns
  | .loaded slot' function argument =>
    slot' = slot ∧ (function, argument) = job ∧ calls = returns
  | .called slot' result => slot' = slot ∧ calls = returns ++ [(job, result)]
  | .stored slot' => slot' = slot ∧ calls = returns ++ [(job, task.result)]
  | _ => False

/-- No task is under way, and these calls have been made. -/
structure PoolState.Quiet (s : PoolState F A V n) (calls : List ((F × A) × Option V)) :
    Prop where
  empty : s.pool.count = 0
  free : ∀ w, (s.workers w).isFree = true
  calls_eq : s.calls = calls

/-- Where the one task under way is: in the ring, with one worker, or done. All other workers
are free, and the calls before its own are those of the waits that have returned. -/
inductive Handed (s : PoolState F A V n) (returns : List ((F × A) × Option V)) (slot : Nat)
    (job : F × A) : Prop
  | pending (hcount : s.pool.count = 1) (hhead : s.pool.head = slot)
      (hjob : (s.pool.taskQueue slot).job = job)
      (hundone : (s.pool.taskQueue slot).done = false)
      (hfree : ∀ w, (s.workers w).isFree = true) (hcalls : s.calls = returns)
  | held (w : Fin n) (hcount : s.pool.count = 0)
      (hundone : (s.pool.taskQueue slot).done = false)
      (hholds : Holds (s.pool.taskQueue slot) slot job returns s.calls (s.workers w))
      (hfree : ∀ v, v ≠ w → (s.workers v).isFree = true)
  | finished (hdone : (s.pool.taskQueue slot).done = true)
      (hquiet : s.Quiet (returns ++ [(job, (s.pool.taskQueue slot).result)]))

/-- A step of a free worker on an empty pool that is open changes nothing but the worker,
which stays free. -/
theorem PoolState.Step.of_free {s s' : PoolState F A V n} {l : PoolLabel F A V n}
    (hstep : s.Step l s') {w : Fin n} (hworker : l.worker = some w)
    (hfree : (s.workers w).isFree = true) (hopen : s.pool.shutdown = 0)
    (hcount : s.pool.count = 0) :
    ∃ worker : Worker F A V, worker.isFree = true ∧ s' = s.setWorker w worker := by
  cases hstep with
  | wait hw =>
    obtain rfl := Option.some.inj hworker
    exact ⟨.asleep, rfl, rfl⟩
  | leave hw hdown => simp [hopen] at hdown
  | take hw _ hpos => simp [hcount] at hpos
  | wake hw =>
    obtain rfl := Option.some.inj hworker
    exact ⟨.awake, rfl, rfl⟩
  | load hw =>
    obtain rfl := Option.some.inj hworker
    simp [hw, Worker.isFree] at hfree
  | call hw =>
    obtain rfl := Option.some.inj hworker
    simp [hw, Worker.isFree] at hfree
  | store hw =>
    obtain rfl := Option.some.inj hworker
    simp [hw, Worker.isFree] at hfree
  | complete hw =>
    obtain rfl := Option.some.inj hworker
    simp [hw, Worker.isFree] at hfree
  | _ => cases hworker

theorem isFree_update {workers : Fin n → Worker F A V} {w v : Fin n} {worker : Worker F A V}
    (hworker : worker.isFree = true) (hfree : v ≠ w → (workers v).isFree = true) :
    (Function.update workers w worker v).isFree = true := by
  by_cases hv : v = w
  · subst hv
    simpa using hworker
  · simpa [hv] using hfree hv

/-- While no task is under way, the workers change nothing but themselves. -/
theorem PoolState.Quiet.step {s s' : PoolState F A V n} {l : PoolLabel F A V n}
    {calls : List ((F × A) × Option V)} (h : s.Quiet calls) (hstep : s.Step l s') {w : Fin n}
    (hworker : l.worker = some w) (hopen : s.pool.shutdown = 0) :
    s'.pool = s.pool ∧ s'.Quiet calls := by
  obtain ⟨worker, hworker', rfl⟩ := hstep.of_free hworker (h.free w) hopen h.empty
  exact ⟨rfl, h.empty, fun v => isFree_update hworker' fun _ => h.free v, h.calls_eq⟩

/-- The step of the worker that holds the task: it goes on holding it, or is done with it. -/
theorem Handed.step_holder {s s' : PoolState F A V n} {l : PoolLabel F A V n}
    {returns : List ((F × A) × Option V)} {slot : Nat} {job : F × A} (hstep : s.Step l s')
    {w : Fin n} (hworker : l.worker = some w) (hcount : s.pool.count = 0)
    (hundone : (s.pool.taskQueue slot).done = false)
    (hholds : Holds (s.pool.taskQueue slot) slot job returns s.calls (s.workers w))
    (hfree : ∀ v, v ≠ w → (s.workers v).isFree = true) : Handed s' returns slot job := by
  -- the other workers stay free
  have hothers : ∀ (worker : Worker F A V) v, v ≠ w →
      (Function.update s.workers w worker v).isFree = true :=
    fun worker v hv => by simpa [hv] using hfree v hv
  cases hstep with
  | wait hw =>
    obtain rfl := Option.some.inj hworker
    -- a worker between two tasks does not hold the job
    simp [hw, Holds] at hholds
  | leave hw =>
    obtain rfl := Option.some.inj hworker
    simp [hw, Holds] at hholds
  | take hw =>
    obtain rfl := Option.some.inj hworker
    simp [hw, Holds] at hholds
  | wake hw =>
    obtain rfl := Option.some.inj hworker
    simp [hw, Holds] at hholds
  | @load v slot' hw =>
    obtain rfl := Option.some.inj hworker
    simp only [hw, Holds] at hholds
    obtain ⟨rfl, hjob, hcalls⟩ := hholds
    exact .held v hcount hundone (by simpa [PoolState.setWorker, Holds] using ⟨hjob, hcalls⟩)
      (hothers _)
  | @call v slot' function argument result hw =>
    obtain rfl := Option.some.inj hworker
    simp only [hw, Holds] at hholds
    obtain ⟨rfl, rfl, hcalls⟩ := hholds
    exact .held v hcount hundone (by simp [PoolState.setWorker, Holds, hcalls]) (hothers _)
  | @store v slot' result hw =>
    obtain rfl := Option.some.inj hworker
    simp only [hw, Holds] at hholds
    obtain ⟨rfl, hcalls⟩ := hholds
    exact .held v hcount (by simpa [PoolState.setWorker, Pool.setTask] using hundone)
      (by simp [PoolState.setWorker, Pool.setTask, Holds, hcalls]) (hothers _)
  | complete hw =>
    obtain rfl := Option.some.inj hworker
    simp only [hw, Holds] at hholds
    obtain ⟨rfl, hcalls⟩ := hholds
    -- the mark is set, and the worker is free again
    exact .finished (by simp [Pool.setTask]) ⟨hcount, fun v => isFree_update rfl (hfree v),
      by simpa [PoolState.setWorker, Pool.setTask] using hcalls⟩
  | _ => cases hworker

/-- Whatever a worker does, the task under way stays in one place, or moves on to the next. -/
theorem Handed.step {s s' : PoolState F A V n} {l : PoolLabel F A V n}
    {returns : List ((F × A) × Option V)} {slot : Nat} {job : F × A}
    (h : Handed s returns slot job) (hstep : s.Step l s') {w : Fin n}
    (hworker : l.worker = some w) (hopen : s.pool.shutdown = 0) :
    Handed s' returns slot job := by
  cases h with
  | pending hcount hhead hjob hundone hfree hcalls =>
    cases hstep with
    | wait _ _ hzero => omega
    | leave _ hdown => omega
    | @take v hw _ hpos =>
      -- the worker that takes the head takes the slot of the task
      subst hhead
      refine .held v (by simp [Pool.removeHead, hcount]) (by simp [Pool.removeHead]) ?_
        fun u hu => ?_
      · have hkeep := congrFun s.pool.job_removeHead s.pool.head
        simpa [PoolState.setWorker, Holds, hcalls, hjob] using hkeep.trans hjob
      · simpa [PoolState.setWorker, hu] using hfree u
    | wake hw =>
      exact .pending hcount hhead hjob hundone (fun v => isFree_update rfl fun _ => hfree v) hcalls
    | @load v _ hw => simpa [hw, Worker.isFree] using hfree v
    | @call v _ _ _ _ hw => simpa [hw, Worker.isFree] using hfree v
    | @store v _ _ hw => simpa [hw, Worker.isFree] using hfree v
    | @complete v _ hw => simpa [hw, Worker.isFree] using hfree v
    | _ => cases hworker
  | held v hcount hundone hholds hfree =>
    -- the worker with the task moves, or one that is free
    by_cases hv : w = v
    · subst hv
      exact step_holder hstep hworker hcount hundone hholds hfree
    · obtain ⟨worker, hworker', rfl⟩ := hstep.of_free hworker (hfree w hv) hopen hcount
      refine .held v hcount hundone ?_ fun u hu => isFree_update hworker' fun _ => hfree u hu
      simpa [PoolState.setWorker, Ne.symm hv] using hholds
  | finished hdone hquiet =>
    obtain ⟨hpool, hquiet⟩ := hquiet.step hstep hworker hopen
    exact .finished (by rwa [hpool]) (by rwa [hpool])

theorem threadpoolWait_of_thread {task : Task F A V} (hthread : task.thread ≠ none) :
    threadpoolWait task = if task.done then .finished else .blocked :=
  if_neg hthread

theorem threadpoolWait_ne_null {task : Task F A V} (hthread : task.thread ≠ none) :
    threadpoolWait task ≠ .null := by
  rw [threadpoolWait_of_thread hthread]
  split <;> simp

theorem undone_of_blocked {task : Task F A V} (hthread : task.thread ≠ none)
    (hwait : threadpoolWait task = .blocked) : task.done = false := by
  rw [threadpoolWait_of_thread hthread] at hwait
  split at hwait
  · cases hwait
  · rename_i hundone
    simpa using hundone

/-- A wait gets behind its loop only when the task is done. -/
theorem Handed.quiet {s : PoolState F A V n} {returns : List ((F × A) × Option V)} {slot : Nat}
    {job : F × A} (h : Handed s returns slot job)
    (hthread : (s.pool.taskQueue slot).thread ≠ none)
    (hwait : threadpoolWait (s.pool.taskQueue slot) = .finished) :
    s.Quiet (returns ++ [(job, (s.pool.taskQueue slot).result)]) := by
  rw [threadpoolWait_of_thread hthread] at hwait
  cases h with
  | pending _ _ _ hundone => simp [hundone] at hwait
  | held _ _ hundone => simp [hundone] at hwait
  | finished _ hquiet => exact hquiet

/-- The function of the task under way has been called once, or not yet. -/
theorem Handed.calls_cases {s : PoolState F A V n} {returns : List ((F × A) × Option V)}
    {slot : Nat} {job : F × A} (h : Handed s returns slot job) :
    s.calls = returns ∨ ∃ result, s.calls = returns ++ [(job, result)] := by
  cases h with
  | pending _ _ _ _ _ hcalls => exact Or.inl hcalls
  | held w _ _ hholds _ =>
    cases hw : s.workers w with
    | claimed => exact Or.inl (by simp_all [Holds])
    | loaded => exact Or.inl (by simp_all [Holds])
    | called _ result => exact Or.inr ⟨result, by simp_all [Holds]⟩
    | stored => exact Or.inr ⟨(s.pool.taskQueue slot).result, by simp_all [Holds]⟩
    | _ => simp [hw, Holds] at hholds
  | finished _ hquiet => exact Or.inr ⟨_, hquiet.calls_eq⟩

/-! ## Runs -/

/-- What a step of a worker leaves as it is. -/
theorem PoolState.Step.of_worker {s s' : PoolState F A V n} {l : PoolLabel F A V n}
    (hstep : s.Step l s') {w : Fin n} (hworker : l.worker = some w)
    (hopen : s.pool.shutdown = 0) :
    s'.accepted = s.accepted ∧ s'.pool.shutdown = 0 ∧
      ∀ slot, (s'.pool.taskQueue slot).thread = (s.pool.taskQueue slot).thread := by
  -- no step of a worker writes the thread of a task
  have hkeep : ∀ slot (task : Task F A V), task.thread = (s.pool.taskQueue slot).thread →
      ∀ k, (Function.update s.pool.taskQueue slot task k).thread =
        (s.pool.taskQueue k).thread := by
    intro slot task htask k
    by_cases hk : k = slot
    · subst hk
      simpa using htask
    · simp [hk]
  cases hstep with
  | refuse => cases hworker
  | add => cases hworker
  | take => exact ⟨rfl, hopen, hkeep _ _ rfl⟩
  | store => exact ⟨rfl, hopen, hkeep _ _ rfl⟩
  | complete => exact ⟨rfl, hopen, hkeep _ _ rfl⟩
  | destroy => cases hworker
  | destroyAgain => cases hworker
  | join => cases hworker
  | _ => exact ⟨rfl, hopen, fun _ => rfl⟩

theorem sparesClaimed_of_worker {s : PoolState F A V n} {l : PoolLabel F A V n} {w : Fin n}
    (hworker : l.worker = some w) : SparesClaimed s l := by
  cases l with
  | add => cases hworker
  | _ => trivial

theorem isFree_signal {workers : Fin n → Worker F A V} (h : ∀ w, (workers w).isFree = true)
    (woken : Option (Fin n)) (w : Fin n) : (signal workers woken w).isFree = true := by
  cases woken with
  | none => exact h w
  | some v => exact isFree_update rfl fun _ => h w

/-- What holds at each place of the producer. No add of it fails. -/
def ProducerState.UnderWay (s : ProducerState F A V n) : Producer F A → Prop
  | .idle => s.state.Quiet s.returns ∧ s.state.accepted = s.returns.map Prod.fst
  | .waiting slot job =>
    Handed s.state s.returns slot job ∧ (s.state.pool.taskQueue slot).thread ≠ none ∧
      s.state.accepted = s.returns.map Prod.fst ++ [job]
  | .reading slot job =>
    s.state.Quiet (s.returns ++ [(job, (s.state.pool.taskQueue slot).result)]) ∧
      s.state.accepted = s.returns.map Prod.fst ++ [job]
  | .stopped => False

/-- The invariant of a pool with one producer. It sleeps over a task that is not done only. -/
structure ProducerState.Orderly (s : ProducerState F A V n) : Prop where
  sound : s.state.Sound
  opened : s.state.pool.shutdown = 0
  under_way : s.UnderWay s.producer
  sleeps : s.asleep = true → ∃ slot job, s.producer = .waiting slot job ∧
    (s.state.pool.taskQueue slot).done = false

theorem ProducerState.initial_orderly {queueSize : Nat} (hsize : 0 < queueSize)
    (junk : Nat → Task F A V) : (ProducerState.initial n queueSize junk).Orderly :=
  ⟨PoolState.initial_sound hsize junk, rfl, ⟨⟨rfl, fun _ => rfl, rfl⟩, rfl⟩,
    fun hasleep => Bool.noConfusion hasleep⟩

/-- The task the producer waits for is marked done by the step that signals it, and by no other
step of a worker. -/
theorem ProducerState.done_of_worker {s : ProducerState F A V n} {state : PoolState F A V n}
    {l : PoolLabel F A V n} {slot : Nat} {job : F × A} (hwaiting : s.producer = .waiting slot job)
    {w : Fin n} (hworker : l.worker = some w) (hstep : s.state.Step l state) :
    if s.signalled l then (state.pool.taskQueue slot).done = true
    else (s.state.pool.taskQueue slot).done = false →
      (state.pool.taskQueue slot).done = false := by
  cases hstep with
  | take =>
    intro hundone
    by_cases hslot : slot = s.state.pool.head
    · subst hslot
      simp [Pool.removeHead]
    · simpa [Pool.removeHead, hslot] using hundone
  | @store _ slot' _ _ =>
    intro hundone
    by_cases hslot : slot = slot'
    · subst hslot
      simpa [Pool.setTask] using hundone
    · simpa [Pool.setTask, hslot] using hundone
  | @complete _ slot' hw =>
    by_cases hslot : slot' = slot
    · subst hslot
      simp [ProducerState.signalled, hw, hwaiting, Pool.setTask]
    · simp [ProducerState.signalled, hw, hwaiting, Pool.setTask, hslot, Ne.symm hslot]
  | refuse => cases hworker
  | add => cases hworker
  | destroy => cases hworker
  | destroyAgain => cases hworker
  | join => cases hworker
  | _ => exact fun hundone => hundone

/-- A worker's step. -/
theorem ProducerState.Orderly.work {s : ProducerState F A V n} (h : s.Orderly)
    {state : PoolState F A V n} {l : PoolLabel F A V n} {w : Fin n} (hworker : l.worker = some w)
    (hstep : s.state.Step l state) :
    ({ s with state := state, asleep := s.asleep && !s.signalled l } :
      ProducerState F A V n).Orderly := by
  obtain ⟨haccepted, hopen, hthread⟩ := hstep.of_worker hworker h.opened
  refine ⟨hstep.sound h.sound (sparesClaimed_of_worker hworker), hopen, ?_, fun hasleep => ?_⟩
  case refine_2 =>
    -- a producer that sleeps on has not been signalled
    simp only [Bool.and_eq_true, Bool.not_eq_true'] at hasleep
    obtain ⟨slot, job, hwaiting, hundone⟩ := h.sleeps hasleep.1
    have hdone := ProducerState.done_of_worker hwaiting hworker hstep
    rw [hasleep.2, if_neg Bool.false_ne_true] at hdone
    exact ⟨slot, job, hwaiting, hdone hundone⟩
  have hway := h.under_way
  show ProducerState.UnderWay _ s.producer
  cases hp : s.producer with
  | idle =>
    simp only [hp, ProducerState.UnderWay] at hway ⊢
    exact ⟨(hway.1.step hstep hworker h.opened).2, haccepted.trans hway.2⟩
  | waiting slot job =>
    simp only [hp, ProducerState.UnderWay] at hway ⊢
    exact ⟨hway.1.step hstep hworker h.opened, by rw [hthread]; exact hway.2.1,
      haccepted.trans hway.2.2⟩
  | reading slot job =>
    simp only [hp, ProducerState.UnderWay] at hway ⊢
    obtain ⟨hpool, hquiet⟩ := hway.1.step hstep hworker h.opened
    exact ⟨by rwa [hpool], haccepted.trans hway.2⟩
  | stopped =>
    rw [hp] at hway
    exact hway.elim

/-- An add between two waits finds the queue empty and open, and all workers free. -/
theorem ProducerState.Orderly.add {s : ProducerState F A V n} (h : s.Orderly)
    (hidle : s.producer = .idle) {state : PoolState F A V n} {function : F} {argument : A}
    {woken : Option (Fin n)} (hstep : s.state.Step (.add function argument woken) state) :
    threadpoolAdd ⟨true, true, true⟩ s.state.pool (some function) argument =
        ⟨0, some s.state.pool.tail, s.state.pool.append function argument⟩ ∧
      ({ s with state := state, producer := .waiting s.state.pool.tail (function, argument) } :
        ProducerState F A V n).Orderly := by
  have hway := h.under_way
  simp only [hidle, ProducerState.UnderWay] at hway
  obtain ⟨⟨hempty, hfree, hcalls⟩, haccepted⟩ := hway
  have hhead := h.sound.valid.head_lt
  -- in an empty ring the tail is the head, so the slot filled is the next one taken
  have htail : s.state.pool.tail = s.state.pool.head := by
    rw [h.sound.valid.tail_eq, hempty, Nat.add_zero, Nat.mod_eq_of_lt hhead]
  have hspares : SparesClaimed s.state (.add function argument woken) := by
    intro _ _ w hw
    simpa [hw, Worker.isFree] using hfree w
  refine ⟨?_, hstep.sound h.sound hspares, ?_, ?_, fun hasleep => ?_⟩
  · rcases s.state.pool.addRegion_cases function argument with ⟨hfull, -⟩ | ⟨-, hdown, -⟩ |
      ⟨-, -, hadd⟩
    · omega
    · exact absurd h.opened hdown
    · simpa [threadpoolAdd] using hadd
  · cases hstep with
    | refuse => exact h.opened
    | add => exact h.opened
  · cases hstep with
    | refuse hclosed =>
      rcases hclosed with hfull | hdown
      · omega
      · exact absurd h.opened hdown
    | add =>
      refine ⟨.pending ?_ ?_ ?_ ?_ (isFree_signal hfree woken) hcalls, ?_, ?_⟩
      · simp [Pool.append, hempty]
      · simp [Pool.append, htail]
      · simp [Pool.append, Task.job]
      · simp [Pool.append]
      · simp [Pool.append]
      · simp [haccepted]
  · -- between two waits the producer does not sleep
    obtain ⟨slot, job, hwaiting, -⟩ := h.sleeps hasleep
    rw [hidle] at hwaiting
    cases hwaiting

theorem ProducerState.step_orderly {s s' : ProducerState F A V n} {l : ProducerLabel F A V n}
    (h : s.Orderly) (hl : s.step l = some s') : s'.Orderly := by
  have hway := h.under_way
  cases l with
  | add function argument woken =>
    simp only [ProducerState.step] at hl
    split at hl
    · rename_i hidle
      obtain ⟨state, hstate, rfl⟩ := Option.map_eq_some_iff.mp hl
      obtain ⟨hadd, horderly⟩ := h.add hidle (PoolState.step_cases h.sound.shutdown_le hstate)
      simpa [hadd] using horderly
    · cases hl
  | wait =>
    simp only [ProducerState.step] at hl
    split at hl
    · rename_i slot job hwaiting
      simp only [hwaiting, ProducerState.UnderWay] at hway
      split at hl
      · cases hl
      · rename_i hawake
        obtain ⟨hhanded, hthread, haccepted⟩ := hway
        split at hl
        · rename_i hnull
          -- `threadpool_add` has set the thread of the task
          exact absurd hnull (threadpoolWait_ne_null hthread)
        · rename_i hfinished
          obtain rfl := Option.some.inj hl
          -- the task is done: the loop is behind it, and no worker is busy
          exact ⟨h.sound, h.opened, ⟨hhanded.quiet hthread hfinished, haccepted⟩,
            fun hasleep => absurd hasleep hawake⟩
        · rename_i hblocked
          obtain rfl := Option.some.inj hl
          -- the task is not done yet: the producer falls asleep over it
          have hundone := undone_of_blocked hthread hblocked
          refine ⟨h.sound, h.opened, ?_, fun _ => ⟨slot, job, hwaiting, hundone⟩⟩
          simp only [hwaiting, ProducerState.UnderWay]
          exact ⟨hhanded, hthread, haccepted⟩
    · cases hl
  | rouse =>
    simp only [ProducerState.step] at hl
    split at hl
    · obtain rfl := Option.some.inj hl
      exact ⟨h.sound, h.opened, h.under_way, fun hasleep => Bool.noConfusion hasleep⟩
    · cases hl
  | read =>
    simp only [ProducerState.step] at hl
    split at hl
    · rename_i slot job hreading
      simp only [hreading, ProducerState.UnderWay] at hway
      obtain rfl := Option.some.inj hl
      refine ⟨h.sound, h.opened, ⟨hway.1, ?_⟩, fun hasleep => ?_⟩
      · simp [ProducerState.returned, hway.2]
      · -- only in the loop it sleeps
        obtain ⟨_, _, hwaiting, -⟩ := h.sleeps hasleep
        rw [hreading] at hwaiting
        cases hwaiting
    · cases hl
  | work l =>
    simp only [ProducerState.step] at hl
    split at hl
    · rename_i hworker
      obtain ⟨w, hworker⟩ := Option.isSome_iff_exists.mp hworker
      obtain ⟨state, hstate, rfl⟩ := Option.map_eq_some_iff.mp hl
      -- a step of a worker, which wakes the producer with its signal
      exact h.work hworker (PoolState.step_cases h.sound.shutdown_le hstate)
    · cases hl

/-- In every run of one producer that waits for each of its tasks before the next add: no add
fails; when a wait is behind its loop, the task's function has been called, once, and the
result the wait reads is the value of that call; and whenever the producer is between two
tasks, the calls made so far are the waits that have returned, with their values, for the
jobs of the adds, in order. -/
theorem wait_returns_result {queueSize : Nat} (hsize : 0 < queueSize) (junk : Nat → Task F A V)
    (ls : List (ProducerLabel F A V n)) (s : ProducerState F A V n)
    (hrun : run ProducerState.step (ProducerState.initial n queueSize junk) ls = some s) :
    s.producer ≠ .stopped ∧
    (s.producer = .idle →
      s.state.calls = s.returns ∧ s.state.accepted = s.returns.map Prod.fst) ∧
    (∀ slot job, s.producer = .waiting slot job →
      threadpoolWait (s.state.pool.taskQueue slot) ≠ .null ∧
      s.state.accepted = s.returns.map Prod.fst ++ [job] ∧
      (s.state.calls = s.returns ∨ ∃ result, s.state.calls = s.returns ++ [(job, result)]) ∧
      (threadpoolWait (s.state.pool.taskQueue slot) = .finished →
        s.state.calls = s.returns ++ [(job, (s.state.pool.taskQueue slot).result)])) ∧
    (∀ slot job, s.producer = .reading slot job →
      s.state.accepted = s.returns.map Prod.fst ++ [job] ∧
      s.state.calls = s.returns ++ [(job, (s.state.pool.taskQueue slot).result)]) := by
  have horderly : s.Orderly :=
    run_invariant (fun _ _ _ h hl => ProducerState.step_orderly h hl)
      (ProducerState.initial_orderly hsize junk) hrun
  have hway := horderly.under_way
  refine ⟨fun hstopped => ?_, fun hidle => ?_, fun slot job hwaiting => ?_,
    fun slot job hreading => ?_⟩
  · rw [hstopped] at hway
    exact hway
  · simp only [hidle, ProducerState.UnderWay] at hway
    exact ⟨hway.1.calls_eq, hway.2⟩
  · simp only [hwaiting, ProducerState.UnderWay] at hway
    obtain ⟨hhanded, hthread, haccepted⟩ := hway
    exact ⟨threadpoolWait_ne_null hthread, haccepted, hhanded.calls_cases,
      fun hfinished => (hhanded.quiet hthread hfinished).calls_eq⟩
  · simp only [hreading, ProducerState.UnderWay] at hway
    exact ⟨hway.2, hway.1.calls_eq⟩

end

/-- A whole task of one worker, on one slot. -/
theorem wait_returns_result_one_slot :
    ∃ s : ProducerState Nat Nat Nat 1,
      run ProducerState.step (ProducerState.initial 1 1 emptyTask)
        [.add 1 10 none, .work (.region 0), .work (.load 0), .work (.call 0 (some 7)),
          .work (.store 0), .work (.complete 0), .wait, .read] = some s ∧
      s.producer = .idle ∧ s.returns = [((1, 10), some 7)] ∧ s.state.calls = s.returns := by
  obtain ⟨s, hrun, hidle, hreturns⟩ : ∃ s : ProducerState Nat Nat Nat 1,
      run ProducerState.step (ProducerState.initial 1 1 emptyTask)
        [.add 1 10 none, .work (.region 0), .work (.load 0), .work (.call 0 (some 7)),
          .work (.store 0), .work (.complete 0), .wait, .read] = some s ∧
      s.producer = .idle ∧ s.returns = [((1, 10), some 7)] :=
    ⟨_, rfl, rfl, rfl⟩
  exact ⟨s, hrun, hidle, hreturns,
    ((wait_returns_result Nat.one_pos emptyTask _ s hrun).2.1 hidle).1⟩

end SelectServer
