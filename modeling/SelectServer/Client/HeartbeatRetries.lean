import SelectServer.Client.HeartbeatClient
import SelectServer.Systems.Streak

/-!
# When the heartbeat client gives up

`handle_connection` only keeps a counter, which a round with an `ACK` resets and every other
round moves on. The counter is the length of the streak of rounds without `ACK`
(`Systems.streak`), so the client gives up at the first window of `HEARTBEAT_MAX_RETRIES` such
rounds, and never without one (`heartbeats_until_window`).
-/

namespace SelectServer

open CLib Systems

/-! ## Rounds -/

/-- The calls of the round succeed, up to the receive. -/
structure HeartbeatRound.Succeeds (r : HeartbeatRound) : Prop where
  packet : r.packet = true
  sendto : r.sendto = true
  recvPacket : r.recvPacket.isSome = true

/-- An `ACK` is received: a datagram that is not empty, behind which the block begins with the
string `ACK`. -/
def HeartbeatRound.acked (r : HeartbeatRound) : Bool :=
  match r.recvPacket, r.answer with
  | some block, .datagram data _ =>
    let received := data.take heartbeatPacketSize
    decide (0 < received.length) && isAck (received ++ block.toList.drop received.length)
  | _, _ => false

/-- The datagram of the round's `HEARTBEAT`, which the kernel has taken. -/
def SendsHeartbeat (r : HeartbeatRound) (a : Ack) : Prop :=
  createHeartbeatPacket r.packet r.now (bytes "HEARTBEAT") = some a.packet ∧ a.sent = true

/-- The first `k` rounds. -/
def firstRounds (rounds : Nat → HeartbeatRound) (k : Nat) : List HeartbeatRound :=
  (List.range k).map rounds

/-- Round `k` completes `HEARTBEAT_MAX_RETRIES` rounds in a row without `ACK`, counted from 1. -/
def GivesUpAt (rounds : Nat → HeartbeatRound) (k : Nat) : Prop :=
  EndsWindow (fun i => (rounds i).acked = true) heartbeatMaxRetries k

instance (rounds : Nat → HeartbeatRound) (k : Nat) : Decidable (GivesUpAt rounds k) :=
  inferInstanceAs (Decidable (EndsWindow _ _ _))

variable {c c' : HeartbeatClient} {r : HeartbeatRound}

/-- What the test of the answer decides. -/
theorem acked_iff {block : Vector UInt8 heartbeatPacketSize} (hblock : r.recvPacket = some block)
    (addr : List UInt8) (addrlen : Nat) :
    r.acked = true ↔ 0 < (recvHeartbeatPacket r.answer block.toList addr addrlen).ret ∧
      isAck (recvHeartbeatPacket r.answer block.toList addr addrlen).packet = true := by
  rw [HeartbeatRound.acked, hblock]
  cases r.answer with
  | failed => simp [recvHeartbeatPacket]
  | datagram data source => simp [recvHeartbeatPacket]

/-- The waiting part of a round sends nothing; it resets the counter or moves it on, and ends
the loop when the counter reaches the bound. -/
theorem HeartbeatClient.receive_counts (hblock : r.recvPacket.isSome = true)
    (hresult : c.result = none) :
    (c.receive r).log = c.log ∧
      (c.receive r).retries = (if r.acked then 0 else c.retries + 1) ∧
      (c.receive r).result =
        if heartbeatMaxRetries ≤ (c.receive r).retries then some (-1) else none := by
  obtain ⟨block, hblock⟩ := Option.isSome_iff_exists.mp hblock
  have hacked := acked_iff hblock c.data.addr c.data.addrlen
  simp only [HeartbeatClient.receive, hblock, ← hacked]
  by_cases h : r.acked = true
  · -- zero is below the bound, so the result stays
    rw [if_pos h, if_pos h]
    exact ⟨rfl, rfl, hresult⟩
  · rw [if_neg h, if_neg h]
    by_cases hmax : heartbeatMaxRetries ≤ c.retries + 1
    · rw [if_pos hmax]
      exact ⟨rfl, rfl, by rw [if_pos hmax]⟩
    · rw [if_neg hmax]
      exact ⟨rfl, rfl, by rw [if_neg hmax]; exact hresult⟩

/-- A round sends one `HEARTBEAT` and counts. -/
theorem heartbeatRound_counts (hr : r.Succeeds) (hresult : c.result = none) :
    ∃ c' a, heartbeatRound c r = some c' ∧ SendsHeartbeat r a ∧ c'.log = c.log ++ [a] ∧
      c'.retries = (if r.acked then 0 else c.retries + 1) ∧
      c'.result = if heartbeatMaxRetries ≤ c'.retries then some (-1) else none := by
  obtain ⟨packet, hpacket⟩ : ∃ packet,
      createHeartbeatPacket r.packet r.now (bytes "HEARTBEAT") = some packet :=
    ⟨_, by rw [createHeartbeatPacket, if_pos hr.packet]⟩
  have hsent : ¬ (if r.sendto = true then (packet.length : Int) else -1) < 0 := by
    rw [if_pos hr.sendto]
    exact Int.not_lt.mpr (Int.natCast_nonneg _)
  have hcounts := HeartbeatClient.receive_counts (r := r) (c := ⟨{ c.data with packet := none },
    c.retries, c.result, c.log ++ [⟨packet, c.data.addr.take c.data.addrlen, r.sendto⟩]⟩)
    hr.recvPacket hresult
  refine ⟨_, ⟨packet, c.data.addr.take c.data.addrlen, r.sendto⟩, ?_, ⟨hpacket, hr.sendto⟩,
    hcounts⟩
  simp only [heartbeatRound, hresult, Option.isNone_none, if_true, hpacket, sendHeartbeatPacket,
    if_neg hsent]

/-! ## Runs -/

section Run

variable {rounds : Nat → HeartbeatRound}

theorem firstRounds_succ (rounds : Nat → HeartbeatRound) (k : Nat) :
    firstRounds rounds (k + 1) = firstRounds rounds k ++ [rounds k] := by
  rw [firstRounds, firstRounds, List.range_succ, List.map_append, List.map_singleton]

/-- One `HEARTBEAT` has gone out in each of the first `k` rounds, and the counter stands at the
length of the streak. -/
structure Counts (rounds : Nat → HeartbeatRound) (k : Nat) (c : HeartbeatClient) : Prop where
  sends : List.Forall₂ SendsHeartbeat (firstRounds rounds k) c.log
  retries : c.retries = streak (fun i => (rounds i).acked = true) k
  result : c.result = if GivesUpAt rounds k then some (-1) else none

theorem counts_start (rounds : Nat → HeartbeatRound) (data : HeartbeatData) :
    Counts rounds 0 (.start true data) := by
  refine ⟨.nil, rfl, ?_⟩
  rw [if_neg fun h : GivesUpAt rounds 0 => absurd h.1 (by decide)]
  rfl

/-- A round of a client that has not given up. -/
theorem Counts.round {k : Nat} (h : Counts rounds k c) (hk : ¬ GivesUpAt rounds k)
    (hr : (rounds k).Succeeds) :
    ∃ c', heartbeatRound c (rounds k) = some c' ∧ Counts rounds (k + 1) c' := by
  have hresult : c.result = none := by rw [h.result, if_neg hk]
  obtain ⟨c', a, hround, hsends, hlog, hretries, hresult⟩ := heartbeatRound_counts hr hresult
  have hstreak : c'.retries = streak (fun i => (rounds i).acked = true) (k + 1) := by
    rw [hretries, h.retries, streak]
  -- the test of the counter is the one for a window
  have hwindow : heartbeatMaxRetries ≤ c'.retries ↔ GivesUpAt rounds (k + 1) := by
    rw [hstreak]
    exact le_streak_iff
  refine ⟨c', hround, ?_, hstreak, hresult.trans (if_congr hwindow rfl rfl)⟩
  rw [firstRounds_succ, hlog]
  exact List.rel_append h.sends (.cons hsends .nil)

/-- As long as no window is complete the client goes on. -/
theorem run_counts (hrounds : ∀ k, (rounds k).Succeeds) (data : HeartbeatData) {k : Nat}
    (hk : ∀ j < k, ¬ GivesUpAt rounds j) :
    ∃ c, run heartbeatRound (.start true data) (firstRounds rounds k) = some c ∧
      Counts rounds k c := by
  induction k with
  | zero => exact ⟨_, rfl, counts_start rounds data⟩
  | succ k ih =>
    obtain ⟨c, hrun, hc⟩ := ih fun j hj => hk j (Nat.lt_succ_of_lt hj)
    obtain ⟨c', hround, hc'⟩ := hc.round (hk k (Nat.lt_succ_self k)) (hrounds k)
    refine ⟨c', ?_, hc'⟩
    rw [firstRounds_succ, run_append, hrun]
    simp [run, hround]

end Run

/-- Up to the first window of rounds without `ACK` every round sends one `HEARTBEAT` and the
client goes on; the round that completes the window is the last one, with result -1. -/
theorem heartbeats_until_window (data : HeartbeatData) {rounds : Nat → HeartbeatRound}
    (hrounds : ∀ k, (rounds k).Succeeds) {k : Nat} (hbefore : ∀ j < k, ¬ GivesUpAt rounds j) :
    ∃ c, run heartbeatRound (.start true data) (firstRounds rounds k) = some c ∧
      List.Forall₂ SendsHeartbeat (firstRounds rounds k) c.log ∧
      (¬ GivesUpAt rounds k → c.result = none) ∧
      (GivesUpAt rounds k → c.result = some (-1) ∧ ∀ r, heartbeatRound c r = none) := by
  obtain ⟨c, hrun, hc⟩ := run_counts hrounds data hbefore
  refine ⟨c, hrun, hc.sends, fun hk => ?_, fun hk => ?_⟩
  · rw [hc.result, if_neg hk]
  · have hresult : c.result = some (-1) := by rw [hc.result, if_pos hk]
    exact ⟨hresult, fun r => by rw [heartbeatRound, hresult]; rfl⟩

/-- A round in which nothing arrives. -/
def silentRound : HeartbeatRound where
  packet := true
  now := 0
  sendto := true
  recvPacket := some (Vector.replicate heartbeatPacketSize 0)
  answer := .failed

/-- An `ACK` in the second round, and silence from then on. -/
def oneAck (k : Nat) : HeartbeatRound := if k = 1 then ackRound 1 else silentRound

theorem heartbeats_until_window_oneAck : ∃ c,
    run heartbeatRound (.start true (setupHeartbeatClient 3 (localPeer 1)))
      (firstRounds oneAck 5) = some c ∧ c.log.length = 5 ∧ c.result = some (-1) := by
  have hrounds : ∀ k, (oneAck k).Succeeds := by
    intro k
    unfold oneAck
    split
    · exact ⟨rfl, rfl, rfl⟩
    · exact ⟨rfl, rfl, rfl⟩
  obtain ⟨c, hrun, hsends, -, hstop⟩ := heartbeats_until_window
    (setupHeartbeatClient 3 (localPeer 1)) hrounds (k := 5) (by decide +kernel)
  exact ⟨c, hrun, hsends.length_eq.symm, (hstop (by decide +kernel)).1⟩

end SelectServer
