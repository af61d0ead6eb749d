import Mathlib.Algebra.Order.BigOperators.Group.Finset
import SelectServer.Systems.Budget
import SelectServer.ThreadPool.Wait

/-!
# Every wait returns

With one producer that waits for each of its tasks, at most one handler is under way at any
time, and none while the producer is between two waits (`one_handler_at_a_time`): the loop of
`handle_connections` and its handlers never touch the tables of the server at once.

No wake-up gets lost, of a worker or of the producer. While the producer is in the loop of
`threadpool_wait`, the workers make a bounded number of steps, and the producer one round that
ends in a sleep, spurious wake-ups not counted. When the workers have no step left, the
producer is awake and its next round gets behind the loop (`wait_returns`).
-/

namespace SelectServer

open Systems

section

variable {F A V : Type*} {n : Nat}

/-! ## One handler at a time -/

/-- The one that has the task is the only worker that is not free. -/
theorem Handed.unique {s : PoolState F A V n} {returns : List ((F × A) × Option V)} {slot : Nat}
    {job : F × A} (h : Handed s returns slot job) {v w : Fin n}
    (hv : (s.workers v).isFree = false) (hw : (s.workers w).isFree = false) : v = w := by
  cases h with
  | pending _ _ _ _ hfree => simp [hfree] at hv
  | held u _ _ _ hfree =>
    have huv : v = u := by
      by_contra hne
      simp [hfree v hne] at hv
    have huw : w = u := by
      by_contra hne
      simp [hfree w hne] at hw
    exact huv.trans huw.symm
  | finished _ hquiet => simp [hquiet.free] at hv

/-- The workers between the claim of a task and its end. -/
def PoolState.Busy (s : PoolState F A V n) (w : Fin n) : Prop := (s.workers w).isFree = false

/-- At any time at most one worker has a task, and none has while the producer is not in the
loop of `threadpool_wait`. -/
theorem one_handler_at_a_time {queueSize : Nat} (hsize : 0 < queueSize) (junk : Nat → Task F A V)
    (ls : List (ProducerLabel F A V n)) (s : ProducerState F A V n)
    (hrun : run ProducerState.step (ProducerState.initial n queueSize junk) ls = some s) :
    (∀ v w, s.state.Busy v → s.state.Busy w → v = w) ∧
      (∀ w, s.state.Busy w → ∃ slot job, s.producer = .waiting slot job) := by
  have horderly : s.Orderly :=
    run_invariant (fun _ _ _ h hl => ProducerState.step_orderly h hl)
      (ProducerState.initial_orderly hsize junk) hrun
  have hway := horderly.under_way
  cases hproducer : s.producer with
  | waiting slot job =>
    rw [hproducer] at hway
    exact ⟨fun v w => hway.1.unique, fun w _ => ⟨slot, job, rfl⟩⟩
  | idle =>
    rw [hproducer] at hway
    have hfree := hway.1.free
    exact ⟨fun v w hv => by simp [PoolState.Busy, hfree] at hv,
      fun w hw => by simp [PoolState.Busy, hfree] at hw⟩
  | reading slot job =>
    rw [hproducer] at hway
    have hfree := hway.1.free
    exact ⟨fun v w hv => by simp [PoolState.Busy, hfree] at hv,
      fun w hw => by simp [PoolState.Busy, hfree] at hw⟩
  | stopped =>
    rw [hproducer] at hway
    exact hway.elim

/-! ## The work of the workers -/

/-- A spurious wake-up. -/
def PoolLabel.isWake : PoolLabel F A V n → Bool
  | .wake _ => true
  | _ => false

theorem Worker.rank_le_one {worker : Worker F A V} (h : worker.isFree = true) :
    worker.rank ≤ 1 := by
  cases worker <;> simp_all [Worker.isFree, Worker.rank]

theorem Worker.rank_le (worker : Worker F A V) : worker.rank ≤ 5 := by
  cases worker <;> simp [Worker.rank]

theorem total_rank_le {workers : Fin n → Worker F A V} (h : ∀ w, (workers w).isFree = true) :
    total Worker.rank workers ≤ n := by
  calc total Worker.rank workers ≤ ∑ _i : Fin n, 1 :=
        Finset.sum_le_sum fun w _ => Worker.rank_le_one (h w)
    _ = n := by simp

theorem total_rank_le_of_one {workers : Fin n → Worker F A V} {w : Fin n}
    (h : ∀ v, v ≠ w → (workers v).isFree = true) : total Worker.rank workers ≤ n + 5 := by
  have hfree : ∀ v, (Function.update workers w Worker.awake v).isFree = true :=
    fun v => isFree_update rfl (h v)
  have hupdate : total Worker.rank (Function.update workers w Worker.awake) + (workers w).rank =
      total Worker.rank workers + Worker.rank (.awake : Worker F A V) :=
    total_update Worker.awake fun _ _ => rfl
  have hle := total_rank_le hfree
  have hrank := (workers w).rank_le
  omega

/-- With one task under way there is little work. -/
theorem Handed.work_le {s : PoolState F A V n} {returns : List ((F × A) × Option V)}
    {slot : Nat} {job : F × A} (h : Handed s returns slot job) : s.work ≤ n + 5 := by
  unfold PoolState.work
  cases h with
  | pending hcount _ _ _ hfree _ =>
    have := total_rank_le hfree
    omega
  | held w hcount _ _ hfree =>
    have := total_rank_le_of_one hfree
    omega
  | finished _ hquiet =>
    have := total_rank_le hquiet.free
    have := hquiet.empty
    omega

theorem ProducerState.work_eq_some {s s' : ProducerState F A V n} {l : PoolLabel F A V n} :
    s.step (.work l) = some s' ↔ (∃ w, l.worker = some w) ∧ ∃ state, s.state.step l = some state ∧
      s' = { s with state := state, asleep := s.asleep && !s.signalled l } := by
  rw [ProducerState.step]
  cases hworker : l.worker with
  | none => simp
  | some w => simp [eq_comm]

/-- The only steps of workers that are not moves are spurious wake-ups. -/
theorem PoolState.Step.work_le {s s' : PoolState F A V n} {l : PoolLabel F A V n}
    (hstep : s.Step l s') {w : Fin n} (hworker : l.worker = some w) :
    s'.work + (if l.isMove then 1 else 0) ≤ s.work + (if l.isWake then 1 else 0) := by
  cases hmove : l.isMove with
  | true =>
    have hwork := hstep.work_eq hmove
    rw [if_pos rfl]
    omega
  | false =>
    cases hstep with
    | @wake v hw =>
      have hupdate : total Worker.rank (Function.update s.workers v Worker.awake) +
          (s.workers v).rank = total Worker.rank s.workers + Worker.rank (.awake : Worker F A V) :=
        total_update Worker.awake fun _ _ => rfl
      rw [hw] at hupdate
      simp only [PoolState.work, PoolState.setWorker, PoolLabel.isWake, if_true, Worker.rank]
        at hupdate ⊢
      have hpaid : 5 * s.pool.count + total Worker.rank (Function.update s.workers v Worker.awake) ≤
          5 * s.pool.count + total Worker.rank s.workers + 1 := by
        omega
      simpa using hpaid
    | refuse => cases hworker
    | add => cases hworker
    | destroy => cases hworker
    | destroyAgain => cases hworker
    | join => cases hworker
    | _ => cases hmove

/-! ## The wait returns -/

/-- A worker makes a move. -/
def ProducerLabel.isMove : ProducerLabel F A V n → Bool
  | .work l => l.isMove
  | _ => false

/-- A worker wakes up spuriously. -/
def ProducerLabel.isWake : ProducerLabel F A V n → Bool
  | .work l => l.isWake
  | _ => false

/-- The producer makes a round of the loop of `threadpool_wait`. -/
def ProducerLabel.isRound : ProducerLabel F A V n → Bool
  | .wait => true
  | _ => false

/-- The producer wakes up spuriously. -/
def ProducerLabel.isRouse : ProducerLabel F A V n → Bool
  | .rouse => true
  | _ => false

/-- The producer is in the loop of `threadpool_wait`. -/
def Producer.inLoop : Producer F A → Bool
  | .waiting _ _ => true
  | _ => false

/-- A step that leaves the producer in the loop of `threadpool_wait`. -/
def ProducerState.waitStep (s : ProducerState F A V n) (l : ProducerLabel F A V n) :
    Option (ProducerState F A V n) :=
  (s.step l).filter fun s' => s'.producer.inLoop

/-- A pool with one producer that waits, and with no worker asleep over a task. -/
structure ProducerState.Waits (s : ProducerState F A V n) (slot : Nat) (job : F × A) : Prop where
  orderly : s.Orderly
  wakeful : s.state.Wakeful
  waiting : s.producer = .waiting slot job

/-- The steps of a waiting producer and of the workers beside it. A round that stays in the
loop falls asleep over a task that is not done. -/
theorem ProducerState.Waits.step_cases {s s' : ProducerState F A V n} {slot : Nat} {job : F × A}
    (h : s.Waits slot job) {l : ProducerLabel F A V n} (hl : s.waitStep l = some s') :
    (l = .wait ∧ s.asleep = false ∧ (s.state.pool.taskQueue slot).done = false ∧
        s' = { s with asleep := true }) ∨
      (l = .rouse ∧ s.asleep = true ∧ s' = { s with asleep := false }) ∨
      ∃ k w state, l = .work k ∧ k.worker = some w ∧ s.state.Step k state ∧
        s' = { s with state := state, asleep := s.asleep && !s.signalled k } := by
  obtain ⟨hstep, hloop⟩ := Option.filter_eq_some_iff.mp hl
  cases l with
  | add =>
    simp [ProducerState.step, h.waiting] at hstep
  | wait =>
    have hway := h.orderly.under_way
    rw [h.waiting] at hway
    have hthread := hway.2.1
    simp only [ProducerState.step, h.waiting] at hstep
    split at hstep
    · cases hstep
    · rename_i hawake
      split at hstep
      · rename_i hnull
        exact absurd hnull (threadpoolWait_ne_null hthread)
      · obtain rfl := Option.some.inj hstep
        simp [Producer.inLoop] at hloop
      · rename_i hblocked
        obtain rfl := Option.some.inj hstep
        refine Or.inl ⟨rfl, by simpa using hawake, undone_of_blocked hthread hblocked, ?_⟩
        rw [h.waiting]
  | rouse =>
    simp only [ProducerState.step] at hstep
    split at hstep
    · rename_i hasleep
      exact Or.inr (Or.inl ⟨rfl, hasleep, (Option.some.inj hstep).symm⟩)
    · cases hstep
  | read =>
    simp [ProducerState.step, h.waiting] at hstep
  | work k =>
    obtain ⟨⟨w, hworker⟩, state, hstate, rfl⟩ := ProducerState.work_eq_some.mp hstep
    exact Or.inr (Or.inr ⟨k, w, state, rfl, hworker,
      PoolState.step_cases h.orderly.sound.shutdown_le hstate, rfl⟩)

/-- No step of the producer or of a worker loses a wake-up. -/
theorem ProducerState.wakeful_step (hn : 0 < n) {s s' : ProducerState F A V n}
    {l : ProducerLabel F A V n} (horderly : s.Orderly) (hwakeful : s.state.Wakeful)
    (hl : s.step l = some s') : s'.state.Wakeful := by
  have hpool : ∀ {k : PoolLabel F A V n} {state : PoolState F A V n},
      s.state.step k = some state → state.Wakeful := fun hk =>
    (PoolState.step_cases horderly.sound.shutdown_le hk).wakeful hn hwakeful
  cases l with
  | add function argument woken =>
    simp only [ProducerState.step] at hl
    split at hl
    · obtain ⟨state, hstate, rfl⟩ := Option.map_eq_some_iff.mp hl
      exact hpool hstate
    · cases hl
  | wait =>
    simp only [ProducerState.step] at hl
    split at hl
    · split at hl
      · cases hl
      · split at hl
        · obtain rfl := Option.some.inj hl
          exact hwakeful
        · obtain rfl := Option.some.inj hl
          exact hwakeful
        · obtain rfl := Option.some.inj hl
          exact hwakeful
    · cases hl
  | rouse =>
    simp only [ProducerState.step] at hl
    split at hl
    · obtain rfl := Option.some.inj hl
      exact hwakeful
    · cases hl
  | read =>
    simp only [ProducerState.step] at hl
    split at hl
    · obtain rfl := Option.some.inj hl
      exact hwakeful
    · cases hl
  | work k =>
    obtain ⟨-, state, hstate, rfl⟩ := ProducerState.work_eq_some.mp hl
    exact hpool hstate

theorem ProducerState.Waits.waitStep (hn : 0 < n) {s s' : ProducerState F A V n} {slot : Nat}
    {job : F × A} (h : s.Waits slot job) {l : ProducerLabel F A V n}
    (hl : s.waitStep l = some s') : s'.Waits slot job := by
  have hstep := (Option.filter_eq_some_iff.mp hl).1
  refine ⟨ProducerState.step_orderly h.orderly hstep,
    ProducerState.wakeful_step hn h.orderly h.wakeful hstep, ?_⟩
  rcases h.step_cases hl with ⟨-, -, -, rfl⟩ | ⟨-, -, rfl⟩ | ⟨_, _, _, -, -, -, rfl⟩ <;>
    exact h.waiting

/-- The moves of the workers are paid for by the work there is. -/
theorem ProducerState.Waits.work_le {s s' : ProducerState F A V n} {slot : Nat} {job : F × A}
    (h : s.Waits slot job) {l : ProducerLabel F A V n} (hl : s.waitStep l = some s') :
    s'.state.work + (if l.isMove then 1 else 0) ≤
      s.state.work + (if l.isWake then 1 else 0) := by
  rcases h.step_cases hl with
    ⟨rfl, -, -, rfl⟩ | ⟨rfl, -, rfl⟩ | ⟨k, w, state, rfl, hworker, hk, rfl⟩
  · exact le_rfl
  · exact le_rfl
  · exact hk.work_le hworker

/-- The round the producer may still make before it sleeps. -/
def ProducerState.roundsLeft (s : ProducerState F A V n) (slot : Nat) : Nat :=
  if s.asleep || (s.state.pool.taskQueue slot).done then 0 else 1

/-- A task that is done stays so until the wait has returned. -/
theorem Handed.done_step {s s' : PoolState F A V n} {l : PoolLabel F A V n}
    {returns : List ((F × A) × Option V)} {slot : Nat} {job : F × A}
    (h : Handed s returns slot job) (hstep : s.Step l s') {w : Fin n}
    (hworker : l.worker = some w) (hopen : s.pool.shutdown = 0)
    (hdone : (s.pool.taskQueue slot).done = true) : (s'.pool.taskQueue slot).done = true := by
  cases h with
  | pending _ _ _ hundone => simp [hundone] at hdone
  | held _ _ hundone => simp [hundone] at hdone
  | finished _ hquiet => rwa [(hquiet.step hstep hworker hopen).1]

/-- The rounds of the producer are paid for by its wake-ups. The signal of the worker comes
with the mark, so it pays for no round that sleeps again. -/
theorem ProducerState.Waits.roundsLeft_le {s s' : ProducerState F A V n} {slot : Nat}
    {job : F × A} (h : s.Waits slot job) {l : ProducerLabel F A V n}
    (hl : s.waitStep l = some s') :
    s'.roundsLeft slot + (if l.isRound then 1 else 0) ≤
      s.roundsLeft slot + (if l.isRouse then 1 else 0) := by
  rcases h.step_cases hl with ⟨rfl, hawake, hundone, rfl⟩ | ⟨rfl, hasleep, rfl⟩ |
    ⟨k, w, state, rfl, hworker, hk, rfl⟩
  · simp [ProducerState.roundsLeft, ProducerLabel.isRound, ProducerLabel.isRouse, hawake, hundone]
  · simp only [ProducerState.roundsLeft, ProducerLabel.isRound, ProducerLabel.isRouse, hasleep]
    split <;> simp
  · have hway := h.orderly.under_way
    rw [h.waiting] at hway
    have hkept := hway.1.done_step hk hworker h.orderly.opened
    have hmarked := ProducerState.done_of_worker h.waiting hworker hk
    simp only [ProducerState.roundsLeft, ProducerLabel.isRound, ProducerLabel.isRouse]
    cases hsignal : s.signalled k with
    | true =>
      rw [hsignal, if_pos rfl] at hmarked
      simp [hmarked]
    | false =>
      cases hdone : (s.state.pool.taskQueue slot).done with
      | true => simp [hkept hdone]
      | false =>
        rw [hsignal, if_neg Bool.false_ne_true] at hmarked
        simp [hmarked hdone]

/-- When no worker can move, the task is done, the producer has been woken, and its round gets
behind the loop. -/
theorem ProducerState.Waits.wakes_of_no_move {s : ProducerState F A V n} {slot : Nat}
    {job : F × A} (h : s.Waits slot job)
    (hstuck : ∀ l : PoolLabel F A V n, l.isMove = true → s.step (.work l) = none) :
    s.asleep = false ∧ ∃ s', s.step .wait = some s' ∧ s'.producer = .reading slot job := by
  have hopen := h.orderly.opened
  have hway := h.orderly.under_way
  rw [h.waiting] at hway
  obtain ⟨hhanded, hthread, -⟩ := hway
  have hasleep : ∀ w, s.state.workers w = .asleep := by
    intro w
    by_contra hw
    obtain ⟨l, state, hl, hmove⟩ := PoolState.worker_moves h.orderly.sound.shutdown_le
      (h.wakeful.lock_free hopen) w hw (h.wakeful.none_left hopen w)
    have hworker : ∃ w, l.worker = some w := by
      cases l <;> first | cases hmove; done | exact ⟨_, rfl⟩
    have hsome := ProducerState.work_eq_some.mpr ⟨hworker, state, hl, rfl⟩
    rw [hstuck l hmove] at hsome
    cases hsome
  -- the task is neither in the ring, where a worker would be awake, nor with a worker
  have hdone : (s.state.pool.taskQueue slot).done = true := by
    cases hhanded with
    | pending hcount =>
      obtain ⟨w, hw⟩ := h.wakeful.some_awake hopen (by omega)
      exact absurd (hasleep w) hw
    | held w _ _ hholds =>
      rw [hasleep w] at hholds
      exact hholds.elim
    | finished hdone _ => exact hdone
  -- the step that has marked the task done has signalled the producer
  have hawake : s.asleep = false := by
    rw [Bool.eq_false_iff]
    intro hsleeping
    obtain ⟨slot', job', hwaiting', hundone⟩ := h.orderly.sleeps hsleeping
    obtain ⟨rfl, -⟩ := Producer.waiting.inj (h.waiting.symm.trans hwaiting')
    rw [hdone] at hundone
    cases hundone
  refine ⟨hawake, { s with producer := .reading slot job }, ?_, rfl⟩
  simp [ProducerState.step, h.waiting, hawake, threadpoolWait_of_thread hthread, hdone]

/-- While the producer is in the loop of `threadpool_wait`, the workers make at most `n + 5`
steps, and one more for each spurious wake-up of a worker; the producer makes one round that
ends in a sleep, and one more for each spurious wake-up of its own; and whenever no worker can
make a step, the producer has been woken, and its round gets behind the loop. -/
theorem wait_returns (hn : 0 < n) {queueSize : Nat} (hsize : 0 < queueSize)
    (junk : Nat → Task F A V) (ls : List (ProducerLabel F A V n)) (s : ProducerState F A V n)
    (hrun : run ProducerState.step (ProducerState.initial n queueSize junk) ls = some s)
    {slot : Nat} {job : F × A} (hwaiting : s.producer = .waiting slot job)
    {steps : List (ProducerLabel F A V n)} {s' : ProducerState F A V n}
    (hrun' : run ProducerState.waitStep s steps = some s') :
    steps.countP ProducerLabel.isMove ≤ n + 5 + steps.countP ProducerLabel.isWake ∧
      steps.countP ProducerLabel.isRound ≤ 1 + steps.countP ProducerLabel.isRouse ∧
      ((∀ l : PoolLabel F A V n, l.isMove = true → s'.step (.work l) = none) →
        s'.asleep = false ∧
          ∃ s'', s'.step .wait = some s'' ∧ s''.producer = .reading slot job) := by
  have hinv : s.Orderly ∧ s.state.Wakeful := by
    refine run_invariant (P := fun s : ProducerState F A V n => s.Orderly ∧ s.state.Wakeful)
      ?_ ⟨ProducerState.initial_orderly hsize junk, PoolState.initial_wakeful queueSize junk⟩ hrun
    rintro s l s' ⟨horderly, hwakeful⟩ hl
    refine ⟨ProducerState.step_orderly horderly hl, ?_⟩
    exact ProducerState.wakeful_step hn horderly hwakeful hl
  have hwaits : s.Waits slot job := ⟨hinv.1, hinv.2, hwaiting⟩
  have hmoves := countP_spends_le (P := fun s => s.Waits slot job) (fun s => s.state.work)
    ProducerLabel.isMove ProducerLabel.isWake
    (fun _ _ _ h hl => ⟨h.waitStep hn hl, h.work_le hl⟩) hwaits hrun'
  have hrounds := countP_spends_le (P := fun s => s.Waits slot job) (fun s => s.roundsLeft slot)
    ProducerLabel.isRound ProducerLabel.isRouse
    (fun _ _ _ h hl => ⟨h.waitStep hn hl, h.roundsLeft_le hl⟩) hwaits hrun'
  have hway := hinv.1.under_way
  rw [hwaiting] at hway
  have hwork := hway.1.work_le
  have hleft : s.roundsLeft slot ≤ 1 := by
    unfold ProducerState.roundsLeft
    split <;> omega
  have hwaits' : s'.Waits slot job :=
    run_invariant (P := fun s : ProducerState F A V n => s.Waits slot job)
      (fun _ _ _ h hl => h.waitStep hn hl) hwaits hrun'
  exact ⟨by omega, by omega, fun hstuck => hwaits'.wakes_of_no_move hstuck⟩

end

/-- The one worker has taken the task, and the producer waits for it. -/
theorem one_handler_at_a_time_one_slot :
    ∃ s : ProducerState Nat Nat Nat 1,
      run ProducerState.step (ProducerState.initial 1 1 emptyTask)
        [.add 1 10 none, .work (.region 0), .work (.load 0)] = some s ∧
      s.state.Busy 0 ∧ ∃ slot job, s.producer = .waiting slot job := by
  obtain ⟨s, hrun, hbusy⟩ : ∃ s : ProducerState Nat Nat Nat 1,
      run ProducerState.step (ProducerState.initial 1 1 emptyTask)
        [.add 1 10 none, .work (.region 0), .work (.load 0)] = some s ∧ s.state.Busy 0 :=
    ⟨_, rfl, rfl⟩
  exact ⟨s, hrun, hbusy, (one_handler_at_a_time Nat.one_pos emptyTask _ s hrun).2 0 hbusy⟩

/-- The producer falls asleep before the one worker has taken the task, and is woken by the
worker's fifth move. After the sixth, back to sleep, no worker can move. -/
theorem wait_returns_one_slot :
    ∃ s s' : ProducerState Nat Nat Nat 1,
      run ProducerState.step (ProducerState.initial 1 1 emptyTask) [.add 1 10 none] = some s ∧
      run ProducerState.waitStep s [.wait, .work (.region 0), .work (.load 0),
        .work (.call 0 (some 7)), .work (.store 0), .work (.complete 0), .work (.region 0)] =
        some s' ∧
      ∃ s'', s'.step .wait = some s'' ∧ s''.producer = .reading 0 (1, 10) := by
  obtain ⟨s, s', hrun, hproducer, hrun', hasleep⟩ : ∃ s s' : ProducerState Nat Nat Nat 1,
      run ProducerState.step (ProducerState.initial 1 1 emptyTask) [.add 1 10 none] = some s ∧
      s.producer = .waiting 0 (1, 10) ∧
      run ProducerState.waitStep s [.wait, .work (.region 0), .work (.load 0),
        .work (.call 0 (some 7)), .work (.store 0), .work (.complete 0), .work (.region 0)] =
        some s' ∧ s'.state.workers 0 = .asleep :=
    ⟨_, _, rfl, rfl, rfl, rfl⟩
  have hstuck : ∀ l : PoolLabel Nat Nat Nat 1, l.isMove = true → s'.step (.work l) = none := by
    intro l hmove
    cases l with
    | add => cases hmove
    | wake => cases hmove
    | destroy => simp [ProducerState.step, PoolLabel.worker]
    | join => simp [ProducerState.step, PoolLabel.worker]
    | _ w =>
      obtain rfl := Subsingleton.elim w 0
      simp [ProducerState.step, PoolLabel.worker, PoolState.step, hasleep]
  exact ⟨s, s', hrun, hrun', ((wait_returns Nat.one_pos Nat.one_pos emptyTask _ s hrun hproducer
    hrun').2.2 hstuck).2⟩

end SelectServer
