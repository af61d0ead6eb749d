import Mathlib.Data.Option.Basic
import Mathlib.Data.List.Basic
import Mathlib.Data.List.Infix

/-!
# Transition systems

A system is a step function: partial, for a step that may not be enabled (`run`), or total
with an output (`trace`). The two rules are the ones every development needs: what each step
preserves holds along a run (`run_invariant`, `run_invariant_of_meets` for runs whose steps
meet a condition, `meets_iff_of_step` for a condition that is exact), and a relation that each
step preserves with equal outputs is a refinement (`trace_refines`, and `faultTrace_refines` for
steps that may fault).
-/

namespace Systems

variable {σ τ ι ο : Type*}

/-! ## Runs -/

/-- The state after a list of steps, when each of them is enabled. -/
def run (step : σ → ι → Option σ) : σ → List ι → Option σ
  | s, [] => some s
  | s, l :: ls => (step s l).bind fun s' => run step s' ls

/-- Every step of a run meets a condition on the state before it. -/
def Meets (step : σ → ι → Option σ) (cond : σ → ι → Prop) : σ → List ι → Prop
  | _, [] => True
  | s, l :: ls => cond s l ∧ ∀ s', step s l = some s' → Meets step cond s' ls

instance decidableMeets (step : σ → ι → Option σ) (cond : σ → ι → Prop)
    [∀ s l, Decidable (cond s l)] : ∀ s ls, Decidable (Meets step cond s ls)
  | _, [] => isTrue trivial
  | s, l :: ls =>
    match h : step s l with
    | none => decidable_of_iff (cond s l) (by simp [Meets, h])
    | some s' =>
      have := decidableMeets step cond s' ls
      decidable_of_iff (cond s l ∧ Meets step cond s' ls) (by simp [Meets, h])

section Run

variable {step : σ → ι → Option σ} {cond : σ → ι → Prop} {s s' : σ} {ls : List ι}

theorem run_cons_eq_some {l : ι} :
    run step s (l :: ls) = some s' ↔ ∃ s₁, step s l = some s₁ ∧ run step s₁ ls = some s' := by
  simp [run, Option.bind_eq_some_iff]

theorem run_append (step : σ → ι → Option σ) (s : σ) (ls ls' : List ι) :
    run step s (ls ++ ls') = (run step s ls).bind fun s' => run step s' ls' := by
  induction ls generalizing s with
  | nil => rfl
  | cons l ls ih => simp only [List.cons_append, run, ih, Option.bind_assoc]

/-- What every step that meets the condition preserves holds after a run whose steps all
meet it. -/
theorem run_invariant_of_meets {P : σ → Prop}
    (hstep : ∀ s l s', P s → cond s l → step s l = some s' → P s') (h0 : P s)
    (hmeets : Meets step cond s ls) (hrun : run step s ls = some s') : P s' := by
  induction ls generalizing s with
  | nil =>
    obtain rfl := Option.some.inj hrun
    exact h0
  | cons l ls ih =>
    obtain ⟨s₁, hs₁, hrun⟩ := run_cons_eq_some.mp hrun
    exact ih (hstep s l s₁ h0 hmeets.1 hs₁) (hmeets.2 s₁ hs₁) hrun

theorem meets_of_forall_mem (h : ∀ s, ∀ l ∈ ls, cond s l) : Meets step cond s ls := by
  induction ls generalizing s with
  | nil => trivial
  | cons l ls ih =>
    refine ⟨h s l List.mem_cons_self, fun _ _ => ih fun s l' hl' => ?_⟩
    exact h s l' (List.mem_cons_of_mem l hl')

theorem Meets.mono {cond' : σ → ι → Prop} (himp : ∀ s l, cond s l → cond' s l)
    (h : Meets step cond s ls) : Meets step cond' s ls := by
  induction ls generalizing s with
  | nil => trivial
  | cons l ls ih => exact ⟨himp s l h.1, fun s' hs' => ih (h.2 s' hs')⟩

theorem Meets.mono_of_mem {cond' : σ → ι → Prop}
    (himp : ∀ s, ∀ l ∈ ls, cond s l → cond' s l) (h : Meets step cond s ls) :
    Meets step cond' s ls := by
  induction ls generalizing s with
  | nil => trivial
  | cons l ls ih =>
    refine ⟨himp s l List.mem_cons_self h.1, fun s' hs' => ih (fun s l' hl' => ?_) (h.2 s' hs')⟩
    exact himp s l' (List.mem_cons_of_mem l hl')

/-- Where an invariant implies the condition, every run meets it. -/
theorem meets_of_invariant {P : σ → Prop} (hstep : ∀ s l s', P s → step s l = some s' → P s')
    (hcond : ∀ s l, P s → cond s l) (h0 : P s) (ls : List ι) : Meets step cond s ls := by
  induction ls generalizing s with
  | nil => trivial
  | cons l ls ih => exact ⟨hcond s l h0, fun s' hs' => ih (hstep s l s' h0 hs')⟩

/-- A run that goes on behind another one. -/
theorem meets_append_iff {ls' : List ι} :
    Meets step cond s (ls ++ ls') ↔
      Meets step cond s ls ∧ ∀ s', run step s ls = some s' → Meets step cond s' ls' := by
  induction ls generalizing s with
  | nil => simp [Meets, run]
  | cons l ls ih =>
    simp only [List.cons_append, Meets, ih, run_cons_eq_some, and_assoc]
    refine and_congr_right fun _ => ?_
    constructor
    · intro h
      exact ⟨fun s₁ hs₁ => (h s₁ hs₁).1, fun s' ⟨s₁, hs₁, hrun⟩ => (h s₁ hs₁).2 s' hrun⟩
    · rintro ⟨hls, hls'⟩ s₁ hs₁
      exact ⟨hls s₁ hs₁, fun s' hrun => hls' s' ⟨s₁, hs₁, hrun⟩⟩

/-- Where a step meets the condition exactly if it preserves `P`, a run meets it exactly if `P`
holds all the way. -/
theorem meets_iff_of_step {P : σ → Prop}
    (hstep : ∀ s l s', P s → step s l = some s' → (cond s l ↔ P s')) (h0 : P s)
    (hrun : run step s ls = some s') :
    Meets step cond s ls ↔ Meets step (fun s l => ∀ s', step s l = some s' → P s') s ls := by
  induction ls generalizing s with
  | nil => exact Iff.rfl
  | cons l ls ih =>
    obtain ⟨s₁, hs₁, hrun⟩ := run_cons_eq_some.mp hrun
    have hiff := hstep s l s₁ h0 hs₁
    constructor
    · rintro ⟨hcond, hrest⟩
      have h₁ := hiff.mp hcond
      refine ⟨fun s₂ hs₂ => ?_, fun s₂ hs₂ => ?_⟩
      · obtain rfl := Option.some.inj (hs₁.symm.trans hs₂)
        exact h₁
      · obtain rfl := Option.some.inj (hs₁.symm.trans hs₂)
        exact (ih h₁ hrun).mp (hrest s₁ hs₁)
    · rintro ⟨hgood, hrest⟩
      have h₁ := hgood s₁ hs₁
      refine ⟨hiff.mpr h₁, fun s₂ hs₂ => ?_⟩
      obtain rfl := Option.some.inj (hs₁.symm.trans hs₂)
      exact (ih h₁ hrun).mpr (hrest s₁ hs₁)

/-- What every step preserves holds after every run. -/
theorem run_invariant {P : σ → Prop} (hstep : ∀ s l s', P s → step s l = some s' → P s')
    (h0 : P s) (hrun : run step s ls = some s') : P s' :=
  run_invariant_of_meets (fun s l s' h _ hl => hstep s l s' h hl) h0
    (meets_of_forall_mem fun _ _ _ => trivial) hrun

end Run

/-! ## Outputs and refinement -/

/-- The outputs of a list of steps and the state after them. -/
def trace (step : σ → ι → ο × σ) : σ → List ι → List ο × σ
  | s, [] => ([], s)
  | s, l :: ls =>
    let r := step s l
    let rest := trace step r.2 ls
    (r.1 :: rest.1, rest.2)

/-- A relation that every step preserves with equal outputs makes one system a refinement of
the other: the same outputs, and related states in the end. -/
theorem trace_refines {step : σ → ι → ο × σ} {spec : τ → ι → ο × τ} {R : σ → τ → Prop}
    (hstep : ∀ s t l, R s t → (step s l).1 = (spec t l).1 ∧ R (step s l).2 (spec t l).2)
    {s : σ} {t : τ} (h : R s t) (ls : List ι) :
    (trace step s ls).1 = (trace spec t ls).1 ∧ R (trace step s ls).2 (trace spec t ls).2 := by
  induction ls generalizing s t with
  | nil => exact ⟨rfl, h⟩
  | cons l ls ih =>
    obtain ⟨hout, hrel⟩ := hstep s t l h
    obtain ⟨houts, hrest⟩ := ih hrel
    simp only [trace, hout, houts]
    exact ⟨trivial, hrest⟩

/-- The outputs of a list of steps and the state after them, for a system whose steps may
fault: `none` is a fault somewhere along them. -/
def faultTrace (step : σ → ι → Option (ο × σ)) : σ → List ι → Option (List ο × σ)
  | s, [] => some ([], s)
  | s, l :: ls =>
    (step s l).bind fun r => (faultTrace step r.2 ls).map fun rest => (r.1 :: rest.1, rest.2)

@[simp] theorem faultTrace_nil (step : σ → ι → Option (ο × σ)) (s : σ) :
    faultTrace step s [] = some ([], s) := rfl

theorem faultTrace_cons {step : σ → ι → Option (ο × σ)} {s s' : σ} {l : ι} {o : ο}
    (h : step s l = some (o, s')) (ls : List ι) :
    faultTrace step s (l :: ls) =
      (faultTrace step s' ls).map fun rest => (o :: rest.1, rest.2) := by
  simp only [faultTrace, h, Option.bind_some]

theorem faultTrace_cons_eq_some {step : σ → ι → Option (ο × σ)} {s s' : σ} {l : ι} {ls : List ι}
    {os : List ο} :
    faultTrace step s (l :: ls) = some (os, s') ↔
      ∃ o s₁ os', step s l = some (o, s₁) ∧ faultTrace step s₁ ls = some (os', s') ∧
        os = o :: os' := by
  constructor
  · intro h
    obtain ⟨⟨o, s₁⟩, hs₁, hrest⟩ := Option.bind_eq_some_iff.mp h
    obtain ⟨⟨os', s₂⟩, htrace, heq⟩ := Option.map_eq_some_iff.mp hrest
    obtain ⟨rfl, rfl⟩ := Prod.mk.inj heq
    exact ⟨o, s₁, os', hs₁, htrace, rfl⟩
  · rintro ⟨o, s₁, os', hs₁, htrace, rfl⟩
    rw [faultTrace_cons hs₁, htrace]
    rfl

/-- A relation whose steps go on without a fault, with the outputs of the specification,
makes a system that may fault a refinement of one that cannot. -/
theorem faultTrace_refines {step : σ → ι → Option (ο × σ)} {spec : τ → ι → ο × τ}
    {R : σ → τ → Prop}
    (hstep : ∀ s t l, R s t → ∃ s', step s l = some ((spec t l).1, s') ∧ R s' (spec t l).2)
    {s : σ} {t : τ} (h : R s t) (ls : List ι) :
    ∃ s', faultTrace step s ls = some ((trace spec t ls).1, s') ∧ R s' (trace spec t ls).2 := by
  induction ls generalizing s t with
  | nil => exact ⟨s, rfl, h⟩
  | cons l ls ih =>
    obtain ⟨s₁, hs₁, hrel⟩ := hstep s t l h
    obtain ⟨s', hs', hrest⟩ := ih hrel
    refine ⟨s', ?_, hrest⟩
    rw [faultTrace_cons hs₁, hs']
    rfl

/-- What every step preserves, as long as its output meets a condition, holds after a run whose
outputs all meet it, and so does what a step then gives for its output. -/
theorem faultTrace_invariant {step : σ → ι → Option (ο × σ)} {P : σ → Prop} {C Q : ο → Prop}
    (hstep : ∀ s l o s', P s → step s l = some (o, s') → C o → P s' ∧ Q o) {s s' : σ}
    {ls : List ι} {os : List ο} (h0 : P s) (htrace : faultTrace step s ls = some (os, s'))
    (hC : ∀ o ∈ os, C o) : P s' ∧ ∀ o ∈ os, Q o := by
  induction ls generalizing s os with
  | nil =>
    obtain ⟨rfl, rfl⟩ := Prod.mk.inj (Option.some.inj htrace)
    exact ⟨h0, List.forall_mem_nil Q⟩
  | cons l ls ih =>
    obtain ⟨o, s₁, os', hs₁, htrace', rfl⟩ := faultTrace_cons_eq_some.mp htrace
    obtain ⟨hCo, hCos⟩ := List.forall_mem_cons.mp hC
    obtain ⟨h₁, hQo⟩ := hstep s l o s₁ h0 hs₁ hCo
    obtain ⟨h', hQos⟩ := ih h₁ htrace' hCos
    exact ⟨h', List.forall_mem_cons.mpr ⟨hQo, hQos⟩⟩

/-- What every step gives for its output holds of all outputs. -/
theorem faultTrace_outputs {step : σ → ι → Option (ο × σ)} {Q : ο → Prop}
    (hstep : ∀ s l o s', step s l = some (o, s') → Q o) {s s' : σ} {ls : List ι} {os : List ο}
    (htrace : faultTrace step s ls = some (os, s')) : ∀ o ∈ os, Q o := by
  have hboth := faultTrace_invariant (P := fun _ => True) (C := fun _ => True)
    (fun s l o s' _ h _ => ⟨trivial, hstep s l o s' h⟩) trivial htrace fun _ _ => trivial
  exact hboth.2

/-- A property of all states that the steps of a list reach, the first one included. -/
def Throughout (step : σ → ι → Option (ο × σ)) (P : σ → Prop) (s : σ) (ls : List ι) : Prop :=
  ∀ done, done <+: ls → ∀ os s', faultTrace step s done = some (os, s') → P s'

theorem throughout_nil {step : σ → ι → Option (ο × σ)} {P : σ → Prop} {s : σ} :
    Throughout step P s [] ↔ P s := by
  constructor
  · intro h
    exact h [] List.prefix_rfl [] s rfl
  · intro hs done hdone os s' htrace
    obtain rfl := List.prefix_nil.mp hdone
    obtain ⟨-, rfl⟩ := Prod.mk.inj (Option.some.inj htrace)
    exact hs

theorem throughout_cons {step : σ → ι → Option (ο × σ)} {P : σ → Prop} {s s' : σ} {l : ι}
    {o : ο} (h : step s l = some (o, s')) (ls : List ι) :
    Throughout step P s (l :: ls) ↔ P s ∧ Throughout step P s' ls := by
  constructor
  · intro hall
    refine ⟨hall [] List.nil_prefix [] s rfl, fun done hdone os s₂ htrace => ?_⟩
    refine hall (l :: done) ((List.prefix_cons_inj l).mpr hdone) (o :: os) s₂ ?_
    rw [faultTrace_cons h, htrace]
    rfl
  · rintro ⟨hs, hall⟩ done hdone os s₂ htrace
    cases done with
    | nil =>
      obtain ⟨-, rfl⟩ := Prod.mk.inj (Option.some.inj htrace)
      exact hs
    | cons l' done =>
      -- a prefix that is not empty has made the first step
      obtain ⟨rfl, hdone'⟩ := List.cons_prefix_cons.mp hdone
      obtain ⟨o', s₃, os', hs₃, hrest, -⟩ := faultTrace_cons_eq_some.mp htrace
      obtain ⟨-, rfl⟩ := Prod.mk.inj (Option.some.inj (h.symm.trans hs₃))
      exact hall done hdone' os' s₂ hrest

end Systems
