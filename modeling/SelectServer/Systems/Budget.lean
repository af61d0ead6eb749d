import SelectServer.Systems.Transition

/-!
# Budgets

A number that the steps of one kind use up, and that only steps of another kind add to. It
bounds how many steps of the first kind a run can have (`countP_spends_le`).
-/

namespace Systems

variable {σ ι : Type*} {step : σ → ι → Option σ} {P : σ → Prop} {s s' : σ} {ls : List ι}

/-- The steps of a kind are paid for by the budget and by the steps that earn it, under an
invariant. -/
theorem countP_spends_le (budget : σ → Nat) (spends earns : ι → Bool)
    (hstep : ∀ s l s', P s → step s l = some s' → P s' ∧
      budget s' + (if spends l then 1 else 0) ≤ budget s + (if earns l then 1 else 0))
    (h0 : P s) (hrun : run step s ls = some s') :
    ls.countP spends + budget s' ≤ budget s + ls.countP earns := by
  induction ls generalizing s with
  | nil =>
    obtain rfl := Option.some.inj hrun
    simp
  | cons l ls ih =>
    obtain ⟨s₁, hs₁, hrun⟩ := run_cons_eq_some.mp hrun
    obtain ⟨h₁, hpaid⟩ := hstep s l s₁ h0 hs₁
    have hrest := ih h₁ hrun
    rw [List.countP_cons, List.countP_cons]
    omega

/-- A budget that nothing adds to. -/
theorem countP_le_budget (budget : σ → Nat) (spends : ι → Bool)
    (hstep : ∀ s l s', P s → step s l = some s' →
      P s' ∧ budget s' + (if spends l then 1 else 0) ≤ budget s)
    (h0 : P s) (hrun : run step s ls = some s') : ls.countP spends ≤ budget s := by
  have hpaid := countP_spends_le budget spends (fun _ => false)
    (fun s l s' h hl => by simpa using hstep s l s' h hl) h0 hrun
  have hnone : ls.countP (fun _ => false) = 0 := by simp
  omega

end Systems
