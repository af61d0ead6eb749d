import Mathlib.Data.Nat.Init

/-!
# Streaks

A counter over an unbounded run that some rounds reset and the others move on. It reaches a
number exactly when that many rounds in a row have not reset it (`le_streak_iff`), so a test of
the counter is a statement about windows of the run.
-/

namespace Systems

/-- The number of rounds in front of round `k` since the last one that is `p`. -/
def streak (p : Nat → Prop) [DecidablePred p] : Nat → Nat
  | 0 => 0
  | k + 1 => if p k then 0 else streak p k + 1

/-- The last `m` of the first `k` rounds are not `p`. -/
def EndsWindow (p : Nat → Prop) (m k : Nat) : Prop := m ≤ k ∧ ∀ i < k, k - m ≤ i → ¬ p i

instance (p : Nat → Prop) [DecidablePred p] (m k : Nat) : Decidable (EndsWindow p m k) :=
  inferInstanceAs (Decidable (m ≤ k ∧ ∀ i < k, k - m ≤ i → ¬ p i))

variable {p : Nat → Prop} {m k : Nat}

theorem endsWindow_zero (k : Nat) : EndsWindow p 0 k :=
  ⟨Nat.zero_le k, fun _ hlt hle => absurd hlt (Nat.not_lt.mpr hle)⟩

/-- A window ends behind a round that is not `p`, when a shorter one ends in front of it. -/
theorem endsWindow_succ_iff : EndsWindow p (m + 1) (k + 1) ↔ EndsWindow p m k ∧ ¬ p k := by
  constructor
  · rintro ⟨hle, hall⟩
    refine ⟨⟨by omega, fun i hlt hi => hall i (by omega) (by omega)⟩, ?_⟩
    exact hall k (Nat.lt_succ_self k) (by omega)
  · rintro ⟨⟨hle, hall⟩, hk⟩
    refine ⟨by omega, fun i hlt hi => ?_⟩
    rcases Nat.lt_succ_iff_lt_or_eq.mp hlt with hlt | rfl
    · exact hall i hlt (by omega)
    · exact hk

variable [DecidablePred p]

theorem le_streak_iff : m ≤ streak p k ↔ EndsWindow p m k := by
  induction k generalizing m with
  | zero =>
    constructor
    · intro hle
      obtain rfl := Nat.le_zero.mp hle
      exact endsWindow_zero 0
    · exact fun h => h.1
  | succ k ih =>
    cases m with
    | zero => exact iff_of_true (Nat.zero_le _) (endsWindow_zero _)
    | succ m =>
      -- a window of one round more ends one round later
      rw [endsWindow_succ_iff, streak]
      by_cases hk : p k
      · rw [if_pos hk]
        exact iff_of_false (Nat.not_succ_le_zero m) fun h => h.2 hk
      · rw [if_neg hk, Nat.add_le_add_iff_right, ih]
        exact (and_iff_left hk).symm

end Systems
