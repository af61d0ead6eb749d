import Mathlib.Data.Nat.Digits.Lemmas
import Mathlib.Data.Int.Basic
import Mathlib.Algebra.Order.Group.Int
import Mathlib.Tactic.Ring
import SelectServer.CLib.Strings

/-!
# Decimal numbers of the C library

`atoi` and the `%d` conversions of `sscanf` and `sprintf` over byte lists. `atoi` is
glibc's: `strtol`, which saturates at the bounds of `long`, truncated to a 32-bit `int`.

The round trip `atoi_decimal` is what lets a length written by one side of a text
protocol be read back by the other.
-/

namespace CLib

/-! ## Fixed-width integers -/

/-- Conversion to a 32-bit `int`: the low 32 bits, read as two's complement. -/
def toInt32 (z : Int) : Int := Int.bmod z (2 ^ 32)

theorem toInt32_eq_self {z : Int} (hlo : -2 ^ 31 ≤ z) (hhi : z < 2 ^ 31) : toInt32 z = z := by
  unfold toInt32
  rw [Int.bmod_eq_of_le] <;> norm_num at * <;> omega

/-- Numbers that differ by `2 ^ 32` have the same low 32 bits. -/
theorem toInt32_sub (z : Int) : toInt32 (z - 2 ^ 32) = toInt32 z := by
  unfold toInt32
  exact_mod_cast Int.sub_bmod_right z (2 ^ 32)

theorem toInt32_add_left (x y : Int) : toInt32 (toInt32 x + y) = toInt32 (x + y) :=
  Int.bmod_add_bmod

theorem toInt32_bounds (z : Int) : -2 ^ 31 ≤ toInt32 z ∧ toInt32 z < 2 ^ 31 := by
  have hlo := Int.le_bmod (x := z) (m := 2 ^ 32) (by norm_num)
  have hhi := Int.bmod_lt (x := z) (m := 2 ^ 32) (by norm_num)
  unfold toInt32
  norm_num at *
  omega

/-- A difference that conversion hides is a multiple of the modulus. -/
theorem eq_zero_of_toInt32_add {z d : Int} (h : toInt32 (z + d) = z) (hd : |d| < 2 ^ 32) :
    d = 0 := by
  have hdvd := Int.dvd_self_sub_of_bmod_eq h
  rw [add_sub_cancel_left] at hdvd
  exact Int.eq_zero_of_abs_lt_dvd hdvd hd

/-- What wraps around becomes smaller. -/
theorem toInt32_le_natCast (n : Nat) : toInt32 n ≤ n := by
  rcases lt_or_ge n (2 ^ 31) with hlt | hge
  · rw [toInt32_eq_self (by omega) (by omega)]
  · have := (toInt32_bounds n).2
    omega

/-- Conversion takes away a multiple of the modulus. -/
theorem dvd_sub_toInt32 (z : Int) : (2 ^ 32 : Int) ∣ z - toInt32 z := by
  unfold toInt32
  exact_mod_cast Int.dvd_self_sub_bmod (x := z) (m := 2 ^ 32)

/-- What wraps around becomes smaller by the modulus at least. -/
theorem toInt32_le_sub {n : Nat} (h : 2 ^ 31 ≤ n) : toInt32 n ≤ n - 2 ^ 32 := by
  have hlt := (toInt32_bounds n).2
  have hle := Int.le_of_dvd (by omega) (dvd_sub_toInt32 n)
  omega

/-- Conversion to a 64-bit signed type (`ssize_t`). -/
def toSSize (z : Int) : Int := Int.bmod z (2 ^ 64)

/-- Conversion to a 64-bit unsigned type (`size_t`). -/
def toSize (z : Int) : Nat := (z % 2 ^ 64).toNat

theorem toSSize_natCast {n : Nat} (h : n < 2 ^ 63) : toSSize n = n := by
  apply Int.bmod_eq_of_le
  · norm_num
  · norm_num
    omega

theorem toSize_natCast {n : Nat} (h : n < 2 ^ 64) : toSize n = n := by
  unfold toSize
  omega

/-- `strtol` saturates at the bounds of a 64-bit `long`. -/
def clampLong (z : Int) : Int := max (-2 ^ 63) (min z (2 ^ 63 - 1))

theorem clampLong_eq_self {z : Int} (hlo : -2 ^ 63 ≤ z) (hhi : z < 2 ^ 63) :
    clampLong z = z := by
  unfold clampLong
  omega

/-! ## Reading decimal digits -/

/-- `isdigit`. -/
def isdigit (c : UInt8) : Bool := 48 ≤ c && c ≤ 57

/-- The value of a digit string. -/
def digitsValue (ds : List UInt8) : Nat := ds.foldl (fun acc c => acc * 10 + (c.toNat - 48)) 0

/-- The optional sign of a decimal number: is it negative, and what follows. -/
def signOf : List UInt8 → Bool × List UInt8
  | c :: cs => if c = 45 then (true, cs) else if c = 43 then (false, cs) else (false, c :: cs)
  | [] => (false, [])

/-- `strtol` in base 10; the value of a text without digits is 0. -/
def strtol (s : List UInt8) : Int :=
  let (negative, rest) := signOf (s.dropWhile isspace)
  let v : Int := digitsValue (rest.takeWhile isdigit)
  clampLong (if negative then -v else v)

/-- `atoi`: `strtol` truncated to `int`. -/
def atoi (s : List UInt8) : Int := toInt32 (strtol s)

/-- The `%d` conversion of `sscanf`: a matching failure when there is no digit. -/
def scanInt (s : List UInt8) : Option Int :=
  let rest := (signOf (s.dropWhile isspace)).2
  if (rest.takeWhile isdigit).isEmpty then none else some (atoi s)

/-! ## Writing decimal digits -/

/-- The digit character of a value below ten. -/
def digitChar (d : Nat) : UInt8 := UInt8.ofNat (48 + d)

/-- The decimal text of a natural number. -/
def decimal (n : Nat) : List UInt8 :=
  if n = 0 then [48] else (Nat.digits 10 n).reverse.map digitChar

/-- The `%d` and `%ld` conversions of `sprintf`. -/
def formatInt (z : Int) : List UInt8 :=
  if z < 0 then 45 :: decimal z.natAbs else decimal z.natAbs

theorem formatInt_natCast (n : Nat) : formatInt n = decimal n := by
  simp [formatInt]

theorem digitChar_toNat {d : Nat} (h : d < 10) : (digitChar d).toNat = 48 + d := by
  have : 48 + d < 256 := by omega
  simp [digitChar, Nat.mod_eq_of_lt this]

theorem isdigit_digitChar {d : Nat} (h : d < 10) : isdigit (digitChar d) = true := by
  have hd := digitChar_toNat h
  simp only [isdigit, Bool.and_eq_true, decide_eq_true_eq, UInt8.le_iff_toNat_le, hd]
  exact ⟨Nat.le_add_right 48 d, (by omega : 48 + d ≤ 57)⟩

theorem isdigit_of_mem_decimal {n : Nat} {c : UInt8} (h : c ∈ decimal n) :
    isdigit c = true := by
  unfold decimal at h
  split at h
  · simp only [List.mem_singleton] at h
    simp [h, isdigit]
  · obtain ⟨d, hd, rfl⟩ := List.mem_map.mp h
    exact isdigit_digitChar (Nat.digits_lt_base (by norm_num) (List.mem_reverse.mp hd))

theorem decimal_ne_nil (n : Nat) : decimal n ≠ [] := by
  unfold decimal
  split
  · simp
  · simpa using Nat.digits_ne_nil_iff_ne_zero.mpr ‹_›

/-- A number below `10 ^ k` has at most `k` digits. -/
theorem length_decimal_le {n k : Nat} (hk : 0 < k) (h : n < 10 ^ k) : (decimal n).length ≤ k := by
  unfold decimal
  split
  · simpa [Nat.one_le_iff_ne_zero, Nat.pos_iff_ne_zero] using hk
  · rw [List.length_map, List.length_reverse]
    exact (Nat.digits_length_le_iff (by norm_num) n).mpr h

/-- A positive number has more than `k` digits exactly from `10 ^ k` on. -/
theorem lt_length_decimal_iff {n k : Nat} (hn : 0 < n) :
    k < (decimal n).length ↔ 10 ^ k ≤ n := by
  rw [decimal, if_neg hn.ne', List.length_map, List.length_reverse]
  exact Nat.lt_digits_length_iff (by norm_num) n

private theorem foldl_digitChar (ds : List Nat) (h : ∀ d ∈ ds, d < 10) (acc : Nat) :
    (ds.map digitChar).foldl (fun acc c => acc * 10 + (c.toNat - 48)) acc =
      ds.foldl (fun acc d => acc * 10 + d) acc := by
  induction ds generalizing acc with
  | nil => rfl
  | cons d ds ih =>
    simp only [List.map_cons, List.foldl_cons, digitChar_toNat (h d List.mem_cons_self)]
    rw [ih fun x hx => h x (List.mem_cons_of_mem _ hx)]
    congr 1
    omega

/-- The digits written denote the number. -/
theorem digitsValue_decimal (n : Nat) : digitsValue (decimal n) = n := by
  unfold decimal
  split
  · simp_all [digitsValue]
  · have hlt : ∀ d ∈ (Nat.digits 10 n).reverse, d < 10 := fun d hd =>
      Nat.digits_lt_base (by norm_num) (List.mem_reverse.mp hd)
    -- `Nat.digits` lists the digits the other way round
    rw [digitsValue, foldl_digitChar _ hlt, List.foldl_reverse]
    calc
      (Nat.digits 10 n).foldr (fun d acc => acc * 10 + d) 0 =
          Nat.ofDigits 10 (Nat.digits 10 n) := by
        rw [Nat.ofDigits_eq_foldr]
        congr 1
        funext d acc
        simp [Nat.mul_comm, Nat.add_comm]
      _ = n := Nat.ofDigits_digits 10 n

/-! ## Round trip -/

theorem isspace_eq_false_of_isdigit {c : UInt8} (h : isdigit c = true) : isspace c = false := by
  simp only [isdigit, isspace, Bool.and_eq_true, decide_eq_true_eq, Bool.or_eq_false_iff,
    Bool.and_eq_false_iff, beq_eq_false_iff_ne, UInt8.le_iff_toNat_le, decide_eq_false_iff_not,
    ne_eq, ← UInt8.toNat_inj] at h ⊢
  simp at h ⊢
  omega

theorem signOf_of_isdigit {c : UInt8} {cs : List UInt8} (h : isdigit c = true) :
    signOf (c :: cs) = (false, c :: cs) := by
  simp only [isdigit, Bool.and_eq_true, decide_eq_true_eq, UInt8.le_iff_toNat_le] at h
  have h45 : c ≠ 45 := by rintro rfl; simp at h
  have h43 : c ≠ 43 := by rintro rfl; simp at h
  simp [signOf, h45, h43]

/-- Of a digit string followed by something else, `strtol` reads the digits. -/
theorem strtol_digits {ds t : List UInt8} (hne : ds ≠ []) (hds : ∀ c ∈ ds, isdigit c = true)
    (ht : ∀ c ∈ t.head?, isdigit c = false) :
    strtol (ds ++ t) = clampLong (digitsValue ds) := by
  have htake : (ds ++ t).takeWhile isdigit = ds := by
    rw [List.takeWhile_append_of_pos hds]
    cases t with
    | nil => simp
    | cons c cs => simp [ht c (by simp)]
  obtain ⟨c, cs, rfl⟩ := List.exists_cons_of_ne_nil hne
  have hc := hds c List.mem_cons_self
  -- neither white space nor a sign stands in front of the digits
  have hdrop : (c :: cs ++ t).dropWhile isspace = c :: cs ++ t := by
    simp [isspace_eq_false_of_isdigit hc]
  rw [List.cons_append] at hdrop htake ⊢
  simp [strtol, hdrop, signOf_of_isdigit hc, htake]

/-- The first digit counts for as many powers of ten as there are digits behind it. -/
theorem digitsValue_cons (d : UInt8) (ds : List UInt8) :
    digitsValue (d :: ds) = (d.toNat - 48) * 10 ^ ds.length + digitsValue ds := by
  have hfold : ∀ (cs : List UInt8) (acc : Nat),
      cs.foldl (fun acc c => acc * 10 + (c.toNat - 48)) acc =
        acc * 10 ^ cs.length + digitsValue cs := by
    intro cs
    induction cs with
    | nil => simp [digitsValue]
    | cons c cs ih =>
      intro acc
      have hdigits : digitsValue (c :: cs) =
          (0 * 10 + (c.toNat - 48)) * 10 ^ cs.length + digitsValue cs := ih _
      rw [List.foldl_cons, ih, hdigits, List.length_cons, pow_succ]
      ring
  have hcons : digitsValue (d :: ds) =
      (0 * 10 + (d.toNat - 48)) * 10 ^ ds.length + digitsValue ds := hfold ds _
  rwa [Nat.zero_mul, Nat.zero_add] at hcons

/-- Losing the first digit does not matter exactly if it is a zero. -/
theorem digitsValue_tail_eq_iff {d : UInt8} (hd : isdigit d = true) (ds : List UInt8) :
    digitsValue ds = digitsValue (d :: ds) ↔ d = 48 := by
  simp only [isdigit, Bool.and_eq_true, decide_eq_true_eq, UInt8.le_iff_toNat_le] at hd
  rw [digitsValue_cons]
  constructor
  · intro heq
    have hprod : (d.toNat - 48) * 10 ^ ds.length = 0 := by omega
    rcases Nat.mul_eq_zero.mp hprod with hzero | hpow
    · have hle : 48 ≤ d.toNat := hd.1
      exact UInt8.toNat_inj.mp (by simpa using (by omega : d.toNat = 48))
    · exact absurd hpow (by positivity)
  · rintro rfl
    simp

theorem strtol_blanks {ws : List UInt8} (h : ∀ c ∈ ws, isspace c = true) (s : List UInt8) :
    strtol (ws ++ s) = strtol s := by
  simp only [strtol, List.dropWhile_append_of_pos h]

/-- White space around a digit string does not matter to `atoi`; without digits it is 0. -/
theorem atoi_blanks {ws ds t : List UInt8} (hws : ∀ c ∈ ws, isspace c = true)
    (hds : ∀ c ∈ ds, isdigit c = true) (ht : ∀ c ∈ t, isspace c = true) :
    atoi (ws ++ (ds ++ t)) = toInt32 (clampLong (digitsValue ds)) := by
  have hread : strtol (ds ++ t) = clampLong (digitsValue ds) := by
    by_cases hne : ds = []
    · subst hne
      have hblanks := strtol_blanks ht []
      rw [List.append_nil] at hblanks
      rw [List.nil_append, hblanks]
      decide
    · refine strtol_digits hne hds fun c hc => ?_
      have hspace := ht c (List.mem_of_mem_head? hc)
      by_contra hdigit
      rw [isspace_eq_false_of_isdigit (by simpa using hdigit)] at hspace
      cases hspace
  rw [atoi, strtol_blanks hws, hread]

/-- A number that is too long does not come out of the conversion, nor does a larger one. -/
theorem toInt32_clampLong_eq_iff {m n : Nat} (hle : m ≤ n) :
    toInt32 (clampLong m) = n ↔ m = n ∧ n < 2 ^ 31 := by
  constructor
  · intro h
    obtain ⟨k, hk, hkm⟩ : ∃ k : Nat, clampLong m = k ∧ k ≤ m := by
      refine ⟨(clampLong m).toNat, ?_, ?_⟩ <;> unfold clampLong <;> omega
    have hlt := (toInt32_bounds (clampLong m)).2
    have hself := toInt32_le_natCast k
    rw [hk] at h hlt
    omega
  · rintro ⟨rfl, hlt⟩
    rw [clampLong_eq_self (by omega) (by omega), toInt32_eq_self (by omega) (by omega)]

/-- `atoi` reads back a length that fits `int`. -/
theorem atoi_decimal {n : Nat} (h : n < 2 ^ 31) : atoi (decimal n) = n := by
  have hs := strtol_digits (t := []) (decimal_ne_nil n)
    (fun _ hc => isdigit_of_mem_decimal hc) (by simp)
  rw [List.append_nil] at hs
  rw [atoi, hs, digitsValue_decimal, clampLong_eq_self (by omega) (by omega),
    toInt32_eq_self (by omega) (by omega)]

/-- `%d` reads the digits that stand before a blank. -/
theorem scanInt_decimal {n : Nat} (h : n < 2 ^ 31) (s : List UInt8) :
    scanInt (decimal n ++ 32 :: s) = some (n : Int) := by
  have hds : ∀ c ∈ decimal n, isdigit c = true := fun _ hc => isdigit_of_mem_decimal hc
  have hs := strtol_digits (t := 32 :: s) (decimal_ne_nil n) hds (by simp [isdigit])
  obtain ⟨c, cs, hdec⟩ := List.exists_cons_of_ne_nil (decimal_ne_nil n)
  have hc : isdigit c = true := hds c (by simp [hdec])
  have hval : atoi (decimal n ++ 32 :: s) = n := by
    rw [atoi, hs, digitsValue_decimal, clampLong_eq_self (by omega) (by omega),
      toInt32_eq_self (by omega) (by omega)]
  rw [hdec, List.cons_append] at hval ⊢
  simp [scanInt, isspace_eq_false_of_isdigit hc, signOf_of_isdigit hc, hc, hval]

/-- `%d` skips a blank in front of the digits. -/
theorem scanInt_skip (s : List UInt8) : scanInt (32 :: s) = scanInt s := by
  have hblank : (32 :: s).dropWhile isspace = s.dropWhile isspace := by simp [isspace]
  simp only [scanInt, atoi, strtol, hblank]

end CLib
