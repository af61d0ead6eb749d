import Mathlib.Algebra.BigOperators.Group.Finset.Basic
import Mathlib.Data.Multiset.AddSub
import Mathlib.Data.Multiset.UnionInter

/-!
# Programs that allocate and free

A heap is the collection of its live blocks. `malloc` opens a block that has never been there,
and `free` is undefined for a block that is not live: one that was freed before, or never
allocated.

A program is described by the blocks that it owns before and after (`Owns`): started with them,
besides any others, it is never undefined, and the others are still there. So what is proved of
one program holds while any number of others work on the same heap. A state machine whose steps
allocate and free keeps a ledger (`KeepsLedger`): what is live is what its states refer to and
what its steps have lost, so a run has lost exactly the sum of what its steps lose
(`Owns.runSteps`).
-/

namespace Systems

/-! ## Heaps -/

/-- A heap: its live blocks, and the number of blocks that were ever allocated. -/
structure Heap where
  next : Nat
  live : Multiset Nat
  nodup : live.Nodup
  lt_next : ∀ a ∈ live, a < next

/-- Nothing is allocated. -/
def Heap.empty : Heap := ⟨0, 0, Multiset.nodup_zero, fun _ h => absurd h (Multiset.notMem_zero _)⟩

/-- A new block. -/
def Heap.grow (h : Heap) : Heap where
  next := h.next + 1
  live := h.next ::ₘ h.live
  nodup := Multiset.nodup_cons.mpr ⟨fun hmem => (h.lt_next _ hmem).false, h.nodup⟩
  lt_next := by
    intro a ha
    rcases Multiset.mem_cons.mp ha with rfl | ha
    · exact Nat.lt_succ_self _
    · exact Nat.lt_succ_of_lt (h.lt_next a ha)

/-- One block less. -/
def Heap.release (h : Heap) (a : Nat) : Heap where
  next := h.next
  live := h.live.erase a
  nodup := h.nodup.erase a
  lt_next := fun b hb => h.lt_next b (Multiset.mem_of_mem_erase hb)

@[simp] theorem Heap.live_grow (h : Heap) : h.grow.live = h.next ::ₘ h.live := rfl

@[simp] theorem Heap.live_release (h : Heap) (a : Nat) : (h.release a).live = h.live.erase a := rfl

/-- A program on the heap; `none` is undefined behaviour. -/
abbrev HeapM (α : Type) := StateT Heap Option α

/-- `malloc`, when there is memory. -/
def malloc : HeapM Nat := fun h => some (h.next, h.grow)

/-- `free`. -/
def free (a : Nat) : HeapM Unit := fun h => if a ∈ h.live then some ((), h.release a) else none

/-- `n` calls of `malloc`. -/
def mallocs : (n : Nat) → HeapM {l : List Nat // l.length = n}
  | 0 => pure ⟨[], rfl⟩
  | n + 1 => do
    let a ← malloc
    let l ← mallocs n
    pure ⟨a :: l.1, congrArg Nat.succ l.2⟩

/-- `free` for one block after the other. -/
def freeAll : List Nat → HeapM Unit
  | [] => pure ()
  | a :: l => do
    free a
    freeAll l

/-! ## Ownership -/

/-- Started with the blocks `P` besides any others, the program is not undefined and leaves the
others alone; its result and the blocks that it has then meet `Q`. -/
def Owns {α : Type} (P : Multiset Nat) (m : HeapM α) (Q : α → Multiset Nat → Prop) : Prop :=
  ∀ (h : Heap) (F : Multiset Nat), h.live = P + F →
    ∃ a h' O, m h = some (a, h') ∧ h'.live = O + F ∧ Q a O

section Rules

variable {α β : Type} {P : Multiset Nat} {m : HeapM α} {f : α → HeapM β}
  {Q : α → Multiset Nat → Prop} {R : β → Multiset Nat → Prop}

theorem Owns.pure {a : α} (h : Q a P) : Owns P (Pure.pure a) Q :=
  fun heap _ hlive => ⟨a, heap, P, rfl, hlive, h⟩

theorem Owns.bind (hm : Owns P m Q) (hf : ∀ a O, Q a O → Owns O (f a) R) :
    Owns P (m >>= f) R := by
  intro h F hlive
  obtain ⟨a, h₁, O, hrun, hlive₁, hq⟩ := hm h F hlive
  obtain ⟨b, h₂, O', hrun₂, hlive₂, hr⟩ := hf a O hq h₁ F hlive₁
  refine ⟨b, h₂, O', ?_, hlive₂, hr⟩
  simp only [StateT.bind, Bind.bind, hrun, Option.bind_some, hrun₂]

theorem Owns.mono {Q' : α → Multiset Nat → Prop} (hm : Owns P m Q)
    (himp : ∀ a O, Q a O → Q' a O) : Owns P m Q' := by
  intro h F hlive
  obtain ⟨a, h', O, hrun, hlive', hq⟩ := hm h F hlive
  exact ⟨a, h', O, hrun, hlive', himp a O hq⟩

theorem Owns.of_eq {P' : Multiset Nat} (h : P' = P) (hm : Owns P m Q) : Owns P' m Q := h ▸ hm

/-- Blocks that a program does not know stay with their owner. -/
theorem Owns.frame (hm : Owns P m Q) (F : Multiset Nat) :
    Owns (P + F) m fun a O => ∃ O', O = O' + F ∧ Q a O' := by
  intro h F' hlive
  rw [add_assoc] at hlive
  obtain ⟨a, h', O, hrun, hlive', hq⟩ := hm h (F + F') hlive
  exact ⟨a, h', O + F, hrun, by rw [hlive', add_assoc], O, rfl, hq⟩

/-- A program that needs no blocks works beside those of its caller. -/
theorem Owns.call (hm : Owns 0 m Q) (hf : ∀ a O, Q a O → Owns (O + P) (f a) R) :
    Owns P (m >>= f) R := by
  have hframe := hm.frame P
  rw [zero_add] at hframe
  apply hframe.bind
  rintro a O ⟨O', rfl, hq⟩
  exact hf a O' hq

theorem Owns.malloc_bind {f : Nat → HeapM β} (hf : ∀ a, Owns ({a} + P) (f a) R) :
    Owns P (malloc >>= f) R := by
  apply Owns.bind (Q := fun a O => O = {a} + P)
  · intro h F hlive
    refine ⟨h.next, h.grow, {h.next} + P, rfl, ?_, rfl⟩
    rw [Heap.live_grow, hlive, add_assoc, Multiset.singleton_add]
  · rintro a O rfl
    exact hf a

theorem Owns.free_bind {a : Nat} {m : HeapM β} (hm : Owns P m R) :
    Owns ({a} + P) (free a >>= fun _ => m) R := by
  apply Owns.bind (Q := fun _ O => O = P)
  · intro h F hlive
    rw [add_assoc, Multiset.singleton_add] at hlive
    have hmem : a ∈ h.live := by
      rw [hlive]
      exact Multiset.mem_cons_self a _
    refine ⟨(), h.release a, P, if_pos hmem, ?_, rfl⟩
    rw [Heap.live_release, hlive, Multiset.erase_cons_head]
  · rintro - O rfl
    exact hm

theorem Owns.mallocs_bind {n : Nat} {f : {l : List Nat // l.length = n} → HeapM β}
    (hf : ∀ l, Owns (↑l.1 + P) (f l) R) : Owns P (mallocs n >>= f) R := by
  induction n generalizing P with
  | zero =>
    have hnil := hf ⟨[], rfl⟩
    rw [Multiset.coe_nil, zero_add] at hnil
    exact hnil
  | succ n ih =>
    simp only [mallocs, bind_assoc, pure_bind]
    apply Owns.malloc_bind
    intro a
    apply ih
    intro l
    have hcons := hf ⟨a :: l.1, congrArg Nat.succ l.2⟩
    rwa [← Multiset.cons_coe, ← Multiset.singleton_add, add_assoc, add_left_comm] at hcons

theorem Owns.freeAll_bind {m : HeapM β} (hm : Owns P m R) (l : List Nat) :
    Owns (↑l + P) (freeAll l >>= fun _ => m) R := by
  induction l with
  | nil =>
    rw [Multiset.coe_nil, zero_add]
    exact hm
  | cons a l ih =>
    rw [← Multiset.cons_coe, ← Multiset.singleton_add, add_assoc, freeAll, bind_assoc]
    exact Owns.free_bind ih

/-- What each step keeps of the labels to come, the state and its blocks, a run keeps. -/
theorem Owns.foldlM {σ ι : Type} {step : σ → ι → HeapM σ} {J : List ι → σ → Multiset Nat → Prop}
    (hstep : ∀ l ls s P, J (l :: ls) s P → Owns P (step s l) (J ls)) (ls : List ι) (s : σ)
    (h : J ls s P) : Owns P (ls.foldlM step s) (J []) := by
  induction ls generalizing s P with
  | nil => exact Owns.pure h
  | cons l ls ih =>
    rw [List.foldlM_cons]
    exact (hstep l ls s P h).bind fun s' O hJ => ih s' hJ

end Rules

/-! ## State machines on the heap -/

section Ledger

variable {σ ι : Type} (cond : ι → Prop) (reach : σ → Multiset Nat) (lost : σ → ι → Nat)
  (step : σ → ι → HeapM σ)

/-- A step whose label meets the condition, and that starts with the blocks its state refers to,
ends with those of the next state, and with as many others as it loses. -/
def KeepsLedger : Prop :=
  ∀ s l, cond l →
    Owns (reach s) (step s l) fun s' O => ∃ L, O = reach s' + L ∧ L.card = lost s l

/-- A run, with the number of blocks that its steps have lost. -/
def runSteps : σ → Nat → List ι → HeapM (σ × Nat)
  | s, n, [] => pure (s, n)
  | s, n, l :: ls => do
    let s' ← step s l
    runSteps s' (n + lost s l) ls

variable {cond reach lost step}

/-- A run is never undefined, and what is live behind it is what its last state refers to and
what was lost on the way. What a step keeps, of the labels to come, the state and the number of
lost blocks, a run keeps. -/
theorem Owns.runSteps_inv {J : List ι → σ → Nat → Prop}
    (hstep : ∀ l ls s n, J (l :: ls) s n → Owns (reach s) (step s l) fun s' O =>
      (∃ L, O = reach s' + L ∧ L.card = lost s l) ∧ J ls s' (n + lost s l))
    (ls : List ι) (s : σ) (L : Multiset Nat) (h : J ls s L.card) :
    Owns (reach s + L) (Systems.runSteps lost step s L.card ls) fun r O =>
      (∃ L', O = reach r.1 + L' ∧ L'.card = r.2) ∧ J [] r.1 r.2 := by
  induction ls generalizing s L with
  | nil => exact Owns.pure ⟨⟨L, rfl, rfl⟩, h⟩
  | cons l ls ih =>
    apply ((hstep l ls s L.card h).frame L).bind
    rintro s' O ⟨O', rfl, ⟨L', rfl, hcard⟩, hJ⟩
    have hadd : L.card + lost s l = (L' + L).card := by
      rw [Multiset.card_add, hcard, add_comm]
    rw [hadd] at hJ ⊢
    have hrest := ih s' (L' + L) hJ
    rwa [← add_assoc] at hrest

/-- A machine that keeps its ledger keeps it in every run. -/
theorem Owns.runSteps (hstep : KeepsLedger cond reach lost step) (s : σ) {ls : List ι}
    (hls : ∀ l ∈ ls, cond l) :
    Owns (reach s) (Systems.runSteps lost step s 0 ls) fun r O =>
      ∃ L, O = reach r.1 + L ∧ L.card = r.2 := by
  have hrun := Owns.runSteps_inv (J := fun ls _ _ => ∀ l ∈ ls, cond l)
    (fun l ls s _ hJ => (hstep s l (hJ l List.mem_cons_self)).mono fun _ _ h =>
      ⟨h, fun l' hl' => hJ l' (List.mem_cons_of_mem l hl')⟩) ls s 0 hls
  rw [add_zero, Multiset.card_zero] at hrun
  exact hrun.mono fun _ _ h => h.1

/-! ### Several machines on one heap -/

/-- A step of one machine of a family. -/
def stepAt {κ : Type} [DecidableEq κ] (step : σ → ι → HeapM σ) (s : κ → σ) (l : κ × ι) :
    HeapM (κ → σ) := do
  let s' ← step (s l.1) l.2
  pure (Function.update s l.1 s')

theorem KeepsLedger.family {κ : Type} [DecidableEq κ] [Fintype κ]
    (h : KeepsLedger cond reach lost step) :
    KeepsLedger (fun l : κ × ι => cond l.2) (fun s : κ → σ => ∑ i, reach (s i))
      (fun s l => lost (s l.1) l.2) (stepAt step) := by
  rintro s ⟨i, l⟩ hl
  -- the blocks of the other machines are the frame
  have hsplit : ∀ s' : κ → σ, ∑ j, reach (s' j) =
      reach (s' i) + ∑ j ∈ Finset.univ.erase i, reach (s' j) := fun s' =>
    (Finset.add_sum_erase _ (fun j => reach (s' j)) (Finset.mem_univ i)).symm
  beta_reduce
  rw [hsplit]
  apply ((h (s i) l hl).frame _).bind
  rintro s' O ⟨O', rfl, L, rfl, hcard⟩
  refine Owns.pure ⟨L, ?_, hcard⟩
  have hrest : ∑ j ∈ Finset.univ.erase i, reach (Function.update s i s' j) =
      ∑ j ∈ Finset.univ.erase i, reach (s j) := by
    apply Finset.sum_congr rfl
    intro j hj
    rw [Function.update_of_ne (Finset.ne_of_mem_erase hj)]
  rw [hsplit, hrest, Function.update_self, add_right_comm]

variable {τ ι' : Type} {cond' : ι' → Prop} {reach' : τ → Multiset Nat} {lost' : τ → ι' → Nat}
  {step' : τ → ι' → HeapM τ}

/-- A step of one of two machines. -/
def stepEither (step : σ → ι → HeapM σ) (step' : τ → ι' → HeapM τ) (s : σ × τ) :
    ι ⊕ ι' → HeapM (σ × τ)
  | .inl l => do
    let s' ← step s.1 l
    pure (s', s.2)
  | .inr l => do
    let s' ← step' s.2 l
    pure (s.1, s')

theorem KeepsLedger.either (h : KeepsLedger cond reach lost step)
    (h' : KeepsLedger cond' reach' lost' step') :
    KeepsLedger (Sum.elim cond cond') (fun s : σ × τ => reach s.1 + reach' s.2)
      (fun s l => l.elim (lost s.1) (lost' s.2)) (stepEither step step') := by
  rintro ⟨s, t⟩ (l | l) hl
  · apply ((h s l hl).frame (reach' t)).bind
    rintro s' O ⟨O', rfl, L, rfl, hcard⟩
    exact Owns.pure ⟨L, add_right_comm _ _ _, hcard⟩
  · have hframe := (h' t l hl).frame (reach s)
    rw [add_comm] at hframe
    apply hframe.bind
    rintro t' O ⟨O', rfl, L, rfl, hcard⟩
    refine Owns.pure ⟨L, ?_, hcard⟩
    beta_reduce
    rw [add_right_comm, add_comm (reach s)]

end Ledger

end Systems
