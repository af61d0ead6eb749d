import Mathlib.Data.List.Basic
import Mathlib.Data.List.GetD
import Mathlib.Data.List.OfFn

/-!
# Allocated blocks with a store log

A block of memory as `malloc` hands it out: its size, its cells (arbitrary until they are
written) and the log of the ranges that were stored to it. A store outside the block is
recorded like any other, so "every store lands inside the object" (`InBounds`) is a
statement about the log, and what the cells hold is known without deciding what an
out-of-range store would have destroyed.
-/

namespace CLib

/-- A block of `size` bytes. `log` holds offset and length of each store. -/
structure Block where
  size : Nat
  cell : Nat → UInt8
  log : List (Nat × Nat)

namespace Block

/-- A fresh block; `junk` is what the memory happened to contain. -/
def malloc (size : Nat) (junk : Nat → UInt8) : Block := ⟨size, junk, []⟩

/-- `memcpy(b + off, bs, length of bs)`. -/
def store (b : Block) (off : Nat) (bs : List UInt8) : Block where
  size := b.size
  cell i := if i < off then b.cell i else bs.getD (i - off) (b.cell i)
  log := b.log ++ [(off, bs.length)]

/-- The first `n` bytes. -/
def read (b : Block) (n : Nat) : List UInt8 := List.ofFn fun i : Fin n => b.cell i

/-- Every store so far lies inside the block. -/
def InBounds (b : Block) : Prop := ∀ w ∈ b.log, w.1 + w.2 ≤ b.size

instance (b : Block) : Decidable b.InBounds :=
  inferInstanceAs (Decidable (∀ w ∈ b.log, w.1 + w.2 ≤ b.size))

/-- The block holds `bs` from `off` on. -/
def Holds (b : Block) (off : Nat) (bs : List UInt8) : Prop :=
  ∀ i (h : i < bs.length), b.cell (off + i) = bs[i]

@[simp] theorem size_malloc (size : Nat) (junk : Nat → UInt8) : (malloc size junk).size = size :=
  rfl

@[simp] theorem size_store (b : Block) (off : Nat) (bs : List UInt8) :
    (b.store off bs).size = b.size := rfl

@[simp] theorem log_malloc (size : Nat) (junk : Nat → UInt8) : (malloc size junk).log = [] := rfl

@[simp] theorem log_store (b : Block) (off : Nat) (bs : List UInt8) :
    (b.store off bs).log = b.log ++ [(off, bs.length)] := rfl

@[simp] theorem length_read (b : Block) (n : Nat) : (b.read n).length = n := by
  simp [read]

theorem inBounds_malloc (size : Nat) (junk : Nat → UInt8) : (malloc size junk).InBounds := by
  simp [InBounds]

theorem inBounds_store_iff (b : Block) (off : Nat) (bs : List UInt8) :
    (b.store off bs).InBounds ↔ b.InBounds ∧ off + bs.length ≤ b.size := by
  simp only [InBounds, log_store, List.mem_append, List.mem_singleton, size_store]
  constructor
  · intro h
    exact ⟨fun w hw => h w (Or.inl hw), h (off, bs.length) (Or.inr rfl)⟩
  · rintro ⟨hb, hw⟩ w (h | rfl)
    · exact hb w h
    · exact hw

theorem holds_store_self (b : Block) (off : Nat) (bs : List UInt8) :
    (b.store off bs).Holds off bs := by
  intro i hi
  simp [store, hi]

/-- A cell behind a store is as it was. -/
theorem cell_store_of_le (b : Block) {off i : Nat} {bs : List UInt8} (h : off + bs.length ≤ i) :
    (b.store off bs).cell i = b.cell i := by
  simp only [store]
  rw [if_neg (by omega), List.getD_eq_default _ _ (by omega)]

theorem holds_nil (b : Block) (off : Nat) : b.Holds off [] := by
  intro i hi
  simp at hi

/-- A store elsewhere leaves a range as it was. -/
theorem Holds.store {b : Block} {off : Nat} {bs : List UInt8} (h : b.Holds off bs)
    (off' : Nat) (bs' : List UInt8)
    (hd : off + bs.length ≤ off' ∨ off' + bs'.length ≤ off) :
    (b.store off' bs').Holds off bs := by
  intro i hi
  have hcell := h i hi
  simp only [Block.store]
  -- the cell lies in front of the store, or behind its last byte
  split
  · exact hcell
  · rw [List.getD_eq_default _ _ (by omega)]
    exact hcell

theorem Holds.append {b : Block} {off : Nat} {xs ys : List UInt8} (hx : b.Holds off xs)
    (hy : b.Holds (off + xs.length) ys) : b.Holds off (xs ++ ys) := by
  intro i hi
  -- a cell of the first part, or one of the second
  by_cases hlt : i < xs.length
  · rw [List.getElem_append_left hlt]
    exact hx i hlt
  · simp only [List.length_append] at hi
    have := hy (i - xs.length) (by omega)
    rw [List.getElem_append_right (by omega), ← this]
    congr 1
    omega

/-- A store right behind what a block holds extends it. -/
theorem Holds.concat {b : Block} {off off' : Nat} {xs : List UInt8} (hx : b.Holds off xs)
    (ys : List UInt8) (hoff : off + xs.length = off') : (b.store off' ys).Holds off (xs ++ ys) := by
  subst hoff
  exact (hx.store _ _ (Or.inl le_rfl)).append (holds_store_self _ _ _)

/-- A terminator behind a store that extends what a block holds. -/
theorem Holds.terminated {b : Block} {xs : List UInt8} (hx : b.Holds 0 xs) (ys : List UInt8) :
    ((b.store xs.length ys).store (xs.length + ys.length) [0]).Holds 0 (xs ++ ys ++ [0]) := by
  apply (hx.concat ys (Nat.zero_add _)).concat
  rw [Nat.zero_add, List.length_append]

theorem Holds.take {b : Block} {off : Nat} {bs : List UInt8} (h : b.Holds off bs) (n : Nat) :
    b.Holds off (bs.take n) := by
  intro i hi
  simp only [List.length_take] at hi
  rw [List.getElem_take]
  exact h i (by omega)

theorem Holds.drop {b : Block} {off : Nat} {bs : List UInt8} (h : b.Holds off bs) (n : Nat) :
    b.Holds (off + n) (bs.drop n) := by
  intro i hi
  rw [List.length_drop] at hi
  rw [List.getElem_drop, ← h (n + i) (by omega), Nat.add_assoc]

theorem Holds.left {b : Block} {off : Nat} {xs ys : List UInt8} (h : b.Holds off (xs ++ ys)) :
    b.Holds off xs := by
  have htake := h.take xs.length
  rwa [List.take_left] at htake

/-- `strcat` of strings one behind the other, to a block that holds a string of `n` bytes. -/
def strcats (b : Block) (n : Nat) : List (List UInt8) → Block
  | [] => b
  | s :: ss => strcats (b.store n (s ++ [0])) (n + s.length) ss

@[simp] theorem size_strcats (b : Block) (n : Nat) (ss : List (List UInt8)) :
    (b.strcats n ss).size = b.size := by
  induction ss generalizing b n with
  | nil => rfl
  | cons s ss ih => rw [strcats, ih, size_store]

/-- The strings stand one behind the other, with a terminator behind the last one. -/
theorem Holds.strcats {b : Block} {xs : List UInt8} (hx : b.Holds 0 (xs ++ [0]))
    (ss : List (List UInt8)) : (b.strcats xs.length ss).Holds 0 (xs ++ ss.flatten ++ [0]) := by
  induction ss generalizing b xs with
  | nil => simpa [Block.strcats] using hx
  | cons s ss ih =>
    -- the terminator in front is what the first byte of the next string overwrites
    have hstored := hx.left.concat (s ++ [0]) (Nat.zero_add _)
    rw [← List.append_assoc] at hstored
    have hrest := ih hstored
    rw [List.length_append] at hrest
    rwa [Block.strcats, List.flatten_cons, ← List.append_assoc]

/-- Each string is stored with its terminator, and the last one reaches farthest. -/
theorem inBounds_strcats_iff (b : Block) (n : Nat) (ss : List (List UInt8)) :
    (b.strcats n ss).InBounds ↔
      b.InBounds ∧ (ss ≠ [] → n + ss.flatten.length + 1 ≤ b.size) := by
  induction ss generalizing b n with
  | nil => simp [strcats]
  | cons s ss ih =>
    rw [strcats, ih, inBounds_store_iff, size_store, List.flatten_cons]
    simp only [List.length_append, List.length_singleton, ne_eq, reduceCtorEq, not_false_eq_true,
      true_implies]
    cases ss with
    | nil => simp; omega
    | cons t ts =>
      simp only [reduceCtorEq, not_false_eq_true, true_implies]
      constructor
      · rintro ⟨⟨hb, -⟩, hlast⟩
        exact ⟨hb, by omega⟩
      · rintro ⟨hb, hlast⟩
        exact ⟨⟨hb, by omega⟩, by omega⟩

/-- What a block holds from its start is what is read from it. -/
theorem Holds.read {b : Block} {bs : List UInt8} (h : b.Holds 0 bs) : b.read bs.length = bs := by
  apply List.ext_getElem
  · simp
  · intro i _ hi
    simpa [Block.read] using h i hi

theorem read_take (b : Block) {m n : Nat} (h : m ≤ n) : (b.read n).take m = b.read m := by
  apply List.ext_getElem
  · simpa using h
  · intro i _ _
    simp [Block.read]

/-- What a block holds is the beginning of what is read from it. -/
theorem Holds.read_eq_append {b : Block} {bs : List UInt8} (h : b.Holds 0 bs) {n : Nat}
    (hn : bs.length ≤ n) : b.read n = bs ++ (b.read n).drop bs.length := by
  have htake := b.read_take hn
  rw [h.read] at htake
  nth_rewrite 1 [← List.take_append_drop bs.length (b.read n), htake]
  rfl

end Block

end CLib
