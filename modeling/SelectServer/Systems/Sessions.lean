import SelectServer.Systems.Transition

/-!
# Sessions in slots

Many instances of one system run side by side, each of them in a slot; a slot is used again
when its instance is gone. A `Session` is an instance with its whole history, and carries the
proof that the history is a run of the system on its own. `Slots` says which session has
which slot, and its three operations are all that may happen: a session enters a slot, it
makes a step, it leaves its slot.

A concrete server keeps the states of its sessions in tables that it indexes with the slots.
To show that these do not get mixed up is to give `Slots` that agree with the tables after
each step. What holds of the steps of one session, whatever the others do, is carried along
its number (`Slots.Follows`).
-/

namespace Systems

variable {κ σ ι : Type*}

/-! ## One session -/

/-- An instance of a system: where it started, the steps it has made, each of them under the
condition, and the state that they lead to. -/
structure Session (step : σ → ι → Option σ) (cond : σ → ι → Prop) where
  init : σ
  labels : List ι
  state : σ
  run_eq : run step init labels = some state
  meets : Meets step cond init labels

variable {step : σ → ι → Option σ} {cond : σ → ι → Prop}

/-- A session before its first step. -/
def Session.start (init : σ) : Session step cond where
  init := init
  labels := []
  state := init
  run_eq := rfl
  meets := trivial

/-- A session makes a step. -/
def Session.extend (s : Session step cond) (label : ι) (state : σ)
    (hstep : step s.state label = some state) (hcond : cond s.state label) :
    Session step cond where
  init := s.init
  labels := s.labels ++ [label]
  state := state
  run_eq := by
    rw [run_append, s.run_eq]
    simp [run, hstep]
  meets := by
    refine meets_append_iff.mpr ⟨s.meets, fun state' hrun => ?_⟩
    obtain rfl := Option.some.inj (s.run_eq.symm.trans hrun)
    exact ⟨hcond, fun _ _ => trivial⟩

/-- What every step under the condition preserves holds of the state of a session that
started with it. -/
theorem Session.invariant {P : σ → Prop} (s : Session step cond)
    (hstep : ∀ s l s', P s → cond s l → step s l = some s' → P s') (h0 : P s.init) :
    P s.state :=
  run_invariant_of_meets hstep h0 s.meets s.run_eq

/-! ## Slots -/

/-- The sessions in the order in which they were opened, and the number of the session in
each slot. No session is in two slots. -/
structure Slots (κ : Type*) (step : σ → ι → Option σ) (cond : σ → ι → Prop) where
  slot : κ → Option Nat
  sessions : List (Session step cond)
  slot_lt : ∀ k n, slot k = some n → n < sessions.length
  slot_inj : ∀ k k' n, slot k = some n → slot k' = some n → k = k'

namespace Slots

/-- No session so far. -/
def empty : Slots κ step cond where
  slot := fun _ => none
  sessions := []
  slot_lt := by simp
  slot_inj := by simp

section

variable [DecidableEq κ]

/-- A session enters a slot; its number is the next one. -/
def enter (t : Slots κ step cond) (k : κ) (init : σ) : Slots κ step cond where
  slot := fun j => if j = k then some t.sessions.length else t.slot j
  sessions := t.sessions ++ [.start init]
  slot_lt := by
    intro j n hj
    rw [List.length_append, List.length_singleton]
    split at hj
    · obtain rfl := Option.some.inj hj
      exact Nat.lt_succ_self _
    · exact Nat.lt_succ_of_lt (t.slot_lt j n hj)
  slot_inj := by
    intro j j' n hj hj'
    -- the new number is none of those in use
    split at hj <;> split at hj'
    · rename_i heq heq'
      exact heq.trans heq'.symm
    · obtain rfl := Option.some.inj hj
      exact absurd (t.slot_lt j' _ hj') (lt_irrefl _)
    · obtain rfl := Option.some.inj hj'
      exact absurd (t.slot_lt j _ hj) (lt_irrefl _)
    · exact t.slot_inj j j' n hj hj'

/-- The session with a number makes a step. -/
def advance (t : Slots κ step cond) (n : Nat) (s : Session step cond) (label : ι) (state : σ)
    (hstep : step s.state label = some state) (hcond : cond s.state label) :
    Slots κ step cond where
  slot := t.slot
  sessions := t.sessions.set n (s.extend label state hstep hcond)
  slot_lt := by simpa using t.slot_lt
  slot_inj := t.slot_inj

/-- The session of a slot leaves it. -/
def leave (t : Slots κ step cond) (k : κ) : Slots κ step cond where
  slot := fun j => if j = k then none else t.slot j
  sessions := t.sessions
  slot_lt := fun j n hj => t.slot_lt j n (Option.ite_none_left_eq_some.mp hj).2
  slot_inj := by
    intro j j' n hj hj'
    rw [Option.ite_none_left_eq_some] at hj hj'
    exact t.slot_inj j j' n hj.2 hj'.2

end

/-! ## One session among the others -/

/-- Each session of `t'` is one of `t`, or new, or one of `t` behind a step that `made` has for
its number. -/
def Follows (made : Nat → σ → ι → Prop) (t t' : Slots κ step cond) : Prop :=
  ∀ n s', t'.sessions[n]? = some s' → t.sessions[n]? = some s' ∨ s'.labels = [] ∨
    ∃ s label, t.sessions[n]? = some s ∧ s'.init = s.init ∧ s'.labels = s.labels ++ [label] ∧
      made n s.state label

variable {made : Nat → σ → ι → Prop} {t t' : Slots κ step cond} {n : Nat}

theorem follows_refl (t : Slots κ step cond) : t.Follows made t := fun _ _ h => Or.inl h

theorem follows_enter [DecidableEq κ] (t : Slots κ step cond) (k : κ) (init : σ) :
    t.Follows made (t.enter k init) := by
  intro n s' hn
  change (t.sessions ++ [_])[n]? = some s' at hn
  rcases lt_or_ge n t.sessions.length with hlt | hge
  · exact Or.inl (List.getElem?_append_left hlt ▸ hn)
  · rw [List.getElem?_append_right hge, List.getElem?_singleton] at hn
    obtain rfl := Option.some.inj (Option.ite_none_right_eq_some.mp hn).2
    exact Or.inr (Or.inl rfl)

theorem follows_advance {s : Session step cond} (hn : t.sessions[n]? = some s) {label : ι}
    {state : σ} (hstep : step s.state label = some state) (hcond : cond s.state label)
    (hmade : made n s.state label) : t.Follows made (t.advance n s label state hstep hcond) := by
  intro m s' hm
  change (t.sessions.set n _)[m]? = some s' at hm
  by_cases heq : m = n
  · subst heq
    rw [List.getElem?_set_self (List.getElem?_eq_some_iff.mp hn).1] at hm
    obtain rfl := Option.some.inj hm
    exact Or.inr (Or.inr ⟨s, label, hn, rfl, rfl, hmade⟩)
  · rw [List.getElem?_set_ne (Ne.symm heq)] at hm
    exact Or.inl hm

theorem Follows.leave [DecidableEq κ] (h : t.Follows made t') (k : κ) :
    t.Follows made (t'.leave k) := h

/-- A condition on the steps of one session holds of its whole history, whatever the other
sessions do. -/
theorem Follows.meets {own : σ → ι → Prop} (h : t.Follows made t')
    (hown : ∀ s label, made n s label → own s label)
    (hmeets : ∀ s, t.sessions[n]? = some s → Meets step own s.init s.labels)
    {s' : Session step cond} (hn : t'.sessions[n]? = some s') :
    Meets step own s'.init s'.labels := by
  rcases h n s' hn with hsame | hnew | ⟨s, label, hs, hinit, hlabels, hmade⟩
  · exact hmeets s' hsame
  · rw [hnew]
    trivial
  · rw [hinit, hlabels]
    refine meets_append_iff.mpr ⟨hmeets s hs, fun state hrun => ?_⟩
    obtain rfl := Option.some.inj (s.run_eq.symm.trans hrun)
    exact ⟨hown _ _ hmade, fun _ _ => trivial⟩

end Slots

end Systems
