import SelectServer.CLib.Strings

/-!
# How far the string functions read

`strcmp`, `strstr` and `%s` are given a pointer, not a length: how much they read depends on what
they find. `strcmp` stops at the first difference, so it never reads behind the terminator of the
other string (`strcmpReach_le`). `%s` stops at a terminator, so it stays inside a field exactly if
the field has one (`strlenReach_le_iff`). `strstr` reads no more (`strstrReach_le`), and where it
stays inside a field the rest of the memory does not matter (`strstr_of_reach_le`).
-/

namespace CLib

/-- The number of bytes that `strcmp` reads of the first string. -/
def strcmpReach : List UInt8 → List UInt8 → Nat
  | a :: as, b :: bs => if a = b ∧ b ≠ 0 then strcmpReach as bs + 1 else 1
  | _, _ => 0

theorem strcmpReach_le (mem s : List UInt8) : strcmpReach mem s ≤ s.length := by
  induction s generalizing mem with
  | nil => cases mem <;> exact le_rfl
  | cons b bs ih =>
    cases mem with
    | nil => exact Nat.zero_le _
    | cons a as =>
      rw [strcmpReach, List.length_cons]
      split
      · exact Nat.succ_le_succ (ih as)
      · exact Nat.succ_le_succ (Nat.zero_le _)

/-- The number of bytes that `strlen`, or a `%s`, reads. -/
def strlenReach (mem : List UInt8) : Nat := (cstr mem).length + 1

/-- The number of bytes that `strstr` reads of the memory it searches. -/
def strstrReach (needle mem : List UInt8) : Nat :=
  match strstr needle (cstr mem) with
  | some i => i + needle.length
  | none => (cstr mem).length + 1

section

variable {needle mem : List UInt8} {n : Nat}

/-- The string in a memory that goes on behind `n` bytes ends within them exactly if one of them
is a NUL. -/
theorem length_cstr_lt_iff (h : n ≤ mem.length) : (cstr mem).length < n ↔ 0 ∈ mem.take n := by
  induction mem generalizing n with
  | nil =>
    obtain rfl := Nat.le_zero.mp h
    simp
  | cons c cs ih =>
    cases n with
    | zero => simp
    | succ n =>
      rw [List.length_cons, Nat.add_le_add_iff_right] at h
      rw [List.take_succ_cons, List.mem_cons, ← ih h]
      by_cases hc : c = 0
      · subst hc
        simp
      · have hne : ¬ 0 = c := fun heq => hc heq.symm
        rw [cstr, List.takeWhile_cons_of_pos (by simpa using hc), List.length_cons,
          Nat.add_lt_add_iff_right, ← cstr]
        simp [hne]

theorem strlenReach_le_iff (h : n ≤ mem.length) : strlenReach mem ≤ n ↔ 0 ∈ mem.take n :=
  length_cstr_lt_iff h

theorem strstrReach_le (hn : needle ≠ []) (mem : List UInt8) :
    strstrReach needle mem ≤ strlenReach mem := by
  rw [strstrReach, strlenReach]
  cases hs : strstr needle (cstr mem) with
  | some i => exact (strstr_le_length hn hs).trans (Nat.le_succ _)
  | none => exact le_rfl

/-- Where `strstr` stays inside a field, it finds what it would find in the field alone. -/
theorem strstr_of_reach_le (hn : needle ≠ []) (h : strstrReach needle mem ≤ n) :
    strstr needle (cstr mem) = strstr needle (cstr (mem.take n)) := by
  rw [strstrReach] at h
  rw [cstr_take]
  cases hs : strstr needle (cstr mem) with
  | some i =>
    rw [hs] at h
    exact (strstr_take_of_le hn hs h).symm
  | none => exact (strstr_take_of_none n hn hs).symm

end

end CLib
