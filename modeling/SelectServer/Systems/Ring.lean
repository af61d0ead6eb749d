import Mathlib.Data.Nat.ModEq
import Mathlib.Data.List.Range
import Mathlib.Logic.Function.Basic

/-!
# Rings and bounded queues

A ring keeps a queue in `cap` slots: `count` of them, from `head` on and around the end. Its
`window` is the queue it stands for. A store at the slot behind the window appends
(`window_push`), moving `head` on removes the oldest element (`window_pop`), and a store
outside the window changes nothing (`window_update`).
-/

namespace Systems

variable {α : Type*}

/-! ## The window of a ring -/

/-- The elements of `count` slots from `head` on, around the end of `cap` slots. -/
def window (cap : Nat) (slots : Nat → α) (head count : Nat) : List α :=
  (List.range count).map fun i => slots ((head + i) % cap)

/-- Slot `k` is one of the `count` slots from `head` on. -/
def InWindow (cap head count k : Nat) : Prop := ∃ i < count, (head + i) % cap = k

section Window

variable {cap head count : Nat} {slots : Nat → α}

@[simp] theorem length_window : (window cap slots head count).length = count := by
  simp [window]

theorem window_congr {slots' : Nat → α}
    (h : ∀ k, InWindow cap head count k → slots' k = slots k) :
    window cap slots' head count = window cap slots head count := by
  refine List.map_congr_left fun i hi => h _ ⟨i, ?_, rfl⟩
  simpa using hi

/-- Two places of the window are the same slot only if they are the same place. -/
theorem add_mod_ne {i j : Nat} (hij : i < j) (hj : j < cap) :
    (head + i) % cap ≠ (head + j) % cap := by
  intro heq
  have hmod : i ≡ j [MOD cap] := Nat.ModEq.add_left_cancel' head heq
  have := Nat.ModEq.eq_of_lt_of_lt hmod (by omega) hj
  omega

/-- The slot behind a window that is not full is free. -/
theorem not_inWindow_tail (h : count < cap) :
    ¬ InWindow cap head count ((head + count) % cap) := by
  rintro ⟨i, hi, heq⟩
  exact add_mod_ne hi h heq

/-- A store outside the window leaves the queue as it is. -/
theorem window_update {k : Nat} (hk : ¬ InWindow cap head count k) (x : α) :
    window cap (Function.update slots k x) head count = window cap slots head count := by
  refine window_congr fun j hj => Function.update_of_ne ?_ _ _
  rintro rfl
  exact hk hj

/-- A store behind the window appends. -/
theorem window_push (h : count < cap) (x : α) :
    window cap (Function.update slots ((head + count) % cap) x) head (count + 1) =
      window cap slots head count ++ [x] := by
  -- the slot behind the window holds none of its elements
  have hkeep : window cap (Function.update slots ((head + count) % cap) x) head count =
      window cap slots head count := window_update (not_inWindow_tail h) x
  simp only [window, List.range_succ, List.map_append, List.map_cons, List.map_nil,
    Function.update_self] at hkeep ⊢
  rw [hkeep]

/-- The first element of the window is the one at `head`, the others are the window from
the next slot on. -/
theorem window_pop (hhead : head < cap) :
    window cap slots head (count + 1) =
      slots head :: window cap slots ((head + 1) % cap) count := by
  have hfirst : (head + 0) % cap = head := by rw [Nat.add_zero, Nat.mod_eq_of_lt hhead]
  simp only [window, List.range_succ_eq_map, List.map_cons, List.map_map, hfirst]
  congr 1
  refine List.map_congr_left fun i _ => ?_
  simp only [Function.comp_apply, Nat.mod_add_mod]
  congr 2
  omega

end Window

/-! ## Bounded queues -/

/-- A queue that takes elements until it is closed. -/
structure BoundedQueue (α : Type*) (cap : Nat) where
  items : List α
  closed : Bool
  length_le : items.length ≤ cap

namespace BoundedQueue

variable {cap : Nat}

/-- The queue without elements. -/
def empty (α : Type*) (cap : Nat) : BoundedQueue α cap := ⟨[], false, Nat.zero_le _⟩

/-- Append, where there is room and the queue is open. -/
def push (q : BoundedQueue α cap) (x : α) : Option (BoundedQueue α cap) :=
  if h : q.items.length < cap ∧ q.closed = false then
    some ⟨q.items ++ [x], q.closed, by simp; omega⟩
  else none

/-- Take the oldest element. -/
def pop (q : BoundedQueue α cap) : Option (α × BoundedQueue α cap) :=
  match h : q.items with
  | [] => none
  | x :: xs => some (x, ⟨xs, q.closed, by
      have := q.length_le
      rw [h, List.length_cons] at this
      omega⟩)

/-- Take no more elements. -/
def close (q : BoundedQueue α cap) : BoundedQueue α cap := ⟨q.items, true, q.length_le⟩

theorem push_of_room {q : BoundedQueue α cap} (x : α)
    (h : q.items.length < cap ∧ q.closed = false) :
    ∃ q', q.push x = some q' ∧ q'.items = q.items ++ [x] ∧ q'.closed = q.closed :=
  ⟨_, dif_pos h, rfl, rfl⟩

theorem push_of_not_room {q : BoundedQueue α cap} (x : α)
    (h : ¬ (q.items.length < cap ∧ q.closed = false)) : q.push x = none :=
  dif_neg h

theorem pop_of_cons {q : BoundedQueue α cap} {x : α} {xs : List α} (h : q.items = x :: xs) :
    ∃ q', q.pop = some (x, q') ∧ q'.items = xs ∧ q'.closed = q.closed := by
  obtain ⟨items, closed, hle⟩ := q
  subst h
  exact ⟨_, rfl, rfl, rfl⟩

theorem pop_of_nil {q : BoundedQueue α cap} (h : q.items = []) : q.pop = none := by
  obtain ⟨items, closed, hle⟩ := q
  subst h
  rfl

end BoundedQueue

end Systems
