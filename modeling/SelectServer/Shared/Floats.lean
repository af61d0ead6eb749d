import Mathlib.Algebra.Order.Field.Power
import Mathlib.Algebra.Order.Floor.Semifield
import Mathlib.Data.Int.Log
import Mathlib.Data.Rat.Floor
import Mathlib.Tactic
import SelectServer.CLib.BigEndian
import SelectServer.CLib.Rounding

/-!
# Floating point numbers in `shared/pack.c`

`pack754` and `unpack754` between numbers and words of `bits` bits, `expbits` of them for the
exponent. A finite `long double` is a rational number. With at most 14 bits for the exponent,
far from the ends of its range, all operations on one are exact but two: the scale of the
significand is added up in a `float`, and its product is rounded to a `long double`.
-/

namespace SelectServer

open CLib

/-- A `float` has 24 digits. -/
def float : BinaryFormat := ⟨24, -149, 128⟩

/-- A `long double` has 64 digits. -/
def longDouble : BinaryFormat := ⟨64, -16445, 16384⟩

/-! ## `pack754` -/

/-- `while (fnorm >= 2.0)`. -/
def pack754Halve (fnorm : ℚ) (shift : Int) : ℚ × Int :=
  if 2 ≤ fnorm then pack754Halve (fnorm / 2) (shift + 1) else (fnorm, shift)
termination_by ⌊fnorm⌋₊
decreasing_by
  have hfloor : ⌊fnorm / 2⌋₊ = ⌊fnorm⌋₊ / 2 := Nat.floor_div_ofNat fnorm 2
  have htwo : 2 ≤ ⌊fnorm⌋₊ := Nat.le_floor (by assumption_mod_cast)
  omega

/-- `while (fnorm < 1.0)`; a number that is not positive stays below 1 for ever. -/
def pack754Double (fnorm : ℚ) (hpos : 0 < fnorm) (shift : Int) : ℚ × Int :=
  if fnorm < 1 then pack754Double (fnorm * 2) (by positivity) (shift - 1) else (fnorm, shift)
termination_by ⌊fnorm⁻¹⌋₊
decreasing_by
  have hfloor : ⌊(fnorm * 2)⁻¹⌋₊ = ⌊fnorm⁻¹⌋₊ / 2 := by
    rw [mul_inv, ← div_eq_mul_inv]
    exact Nat.floor_div_ofNat fnorm⁻¹ 2
  have hone : 1 ≤ ⌊fnorm⁻¹⌋₊ := Nat.le_floor (by
    push_cast
    exact (one_le_inv₀ hpos).mpr (by linarith))
  omega

theorem pack754Halve_spec (fnorm : ℚ) (shift : Int) :
    (pack754Halve fnorm shift).1 * 2 ^ (pack754Halve fnorm shift).2 = fnorm * 2 ^ shift ∧
      (pack754Halve fnorm shift).1 < 2 := by
  fun_induction pack754Halve fnorm shift with
  | case1 fnorm shift h ih =>
    refine ⟨?_, ih.2⟩
    rw [ih.1, zpow_add_one₀ (by norm_num)]
    ring
  | case2 fnorm shift h => exact ⟨rfl, not_le.mp h⟩

theorem pack754Halve_pos {fnorm : ℚ} (h : 0 < fnorm) (shift : Int) :
    0 < (pack754Halve fnorm shift).1 := by
  have hspec := (pack754Halve_spec fnorm shift).1
  have hright : 0 < fnorm * 2 ^ shift := by positivity
  rw [← hspec] at hright
  exact pos_of_mul_pos_left hright (by positivity)

theorem pack754Double_spec (fnorm : ℚ) (hpos : 0 < fnorm) (shift : Int) (hlt : fnorm < 2) :
    (pack754Double fnorm hpos shift).1 * 2 ^ (pack754Double fnorm hpos shift).2 =
        fnorm * 2 ^ shift ∧
      1 ≤ (pack754Double fnorm hpos shift).1 ∧ (pack754Double fnorm hpos shift).1 < 2 := by
  fun_induction pack754Double fnorm hpos shift with
  | case1 fnorm hpos shift h ih =>
    obtain ⟨hvalue, hone, htwo⟩ := ih (by linarith)
    refine ⟨?_, hone, htwo⟩
    rw [hvalue, zpow_sub_one₀ (by norm_num)]
    ring
  | case2 fnorm hpos shift h => exact ⟨rfl, not_lt.mp h, hlt⟩

/-- Both loops of `pack754`: the normalized form of a number, and its exponent. -/
def pack754Normal (fnorm : ℚ) (hpos : 0 < fnorm) : ℚ × Int :=
  pack754Double (pack754Halve fnorm 0).1 (pack754Halve_pos hpos 0) (pack754Halve fnorm 0).2

/-- `(1LL << significandbits) + 0.5f`, a `float`. -/
def significandScale (significandbits : Nat) : ℚ := float.round (2 ^ significandbits + 1 / 2)

/-- The product that is stored in `significand`, a `long double` cut off to a `long long`. -/
def packedSignificand (significandbits : Nat) (fnorm : ℚ) : Nat :=
  ⌊longDouble.round ((fnorm - 1) * significandScale significandbits)⌋₊

/-- `pack754`, of a finite number. -/
def pack754 (f : ℚ) (bits expbits : Nat) : Nat :=
  let significandbits := bits - expbits - 1
  if hzero : f = 0 then 0
  else
    let sign := if f < 0 then 1 else 0
    let normal := pack754Normal |f| (abs_pos.mpr hzero)
    let significand := packedSignificand significandbits normal.1
    let exp := normal.2 + ((1 <<< (expbits - 1) - 1 : Nat) : Int)
    sign <<< (bits - 1) ||| ofSigned 8 (exp * 2 ^ (bits - expbits - 1)) ||| significand

/-! ## `unpack754` -/

/-- `while (shift > 0)`. -/
def unpack754Double : Nat → ℚ → ℚ
  | 0, result => result
  | shift + 1, result => unpack754Double shift (result * 2)

/-- `while (shift < 0)`. -/
def unpack754Halve : Nat → ℚ → ℚ
  | 0, result => result
  | shift + 1, result => unpack754Halve shift (result / 2)

/-- `unpack754`. -/
def unpack754 (i bits expbits : Nat) : ℚ :=
  let significandbits := bits - expbits - 1
  if i = 0 then 0
  else
    let result : ℚ := ((i &&& (1 <<< significandbits - 1) : Nat) : ℚ) / 2 ^ significandbits + 1
    let bias := 1 <<< (expbits - 1) - 1
    let shift : Int := (((i >>> significandbits) &&& (1 <<< expbits - 1) : Nat) : Int) - bias
    let result := unpack754Halve (-shift).toNat (unpack754Double shift.toNat result)
    result * if (i >>> (bits - 1)) &&& 1 = 1 then -1 else 1

theorem unpack754Double_eq (shift : Nat) (result : ℚ) :
    unpack754Double shift result = result * 2 ^ shift := by
  induction shift generalizing result with
  | zero => simp [unpack754Double]
  | succ shift ih =>
    rw [unpack754Double, ih, pow_succ]
    ring

theorem unpack754Halve_eq (shift : Nat) (result : ℚ) :
    unpack754Halve shift result = result / 2 ^ shift := by
  induction shift generalizing result with
  | zero => simp [unpack754Halve]
  | succ shift ih =>
    rw [unpack754Halve, ih, pow_succ]
    field_simp

/-- The two loops of `unpack754`. -/
theorem unpack754_loops (shift : Int) (result : ℚ) :
    unpack754Halve (-shift).toNat (unpack754Double shift.toNat result) = result * 2 ^ shift := by
  rw [unpack754Double_eq, unpack754Halve_eq]
  rcases le_total 0 shift with h | h
  · obtain ⟨n, rfl⟩ := Int.eq_ofNat_of_zero_le h
    simp
  · obtain ⟨n, hn⟩ := Int.eq_ofNat_of_zero_le (Int.neg_nonneg.mpr h)
    obtain rfl : shift = -(n : Int) := by omega
    simp [div_eq_mul_inv]

/-! ## Normalized numbers -/

/-- The number with a sign, a significand `x` and an exponent `e`. -/
def floatValue (negative : Bool) (x : ℚ) (e : Int) : ℚ := (if negative then -1 else 1) * (x * 2 ^ e)

section Normal

variable {x y : ℚ} {d e : Int} {negative : Bool}

/-- A normalized form is the only one. -/
theorem normal_unique (hx : 1 ≤ x ∧ x < 2) (hy : 1 ≤ y ∧ y < 2) (h : x * 2 ^ d = y * 2 ^ e) :
    x = y ∧ d = e := by
  have hlog : ∀ {z : ℚ} {k : Int}, 1 ≤ z ∧ z < 2 → Int.log 2 (z * 2 ^ k) = k := by
    intro z k hz
    refine log_eq_of_lt (le_mul_of_one_le_left (by positivity) hz.1) ?_
    rw [zpow_add_one₀ (by norm_num), mul_comm]
    exact (mul_lt_mul_iff_right₀ (by positivity)).mpr hz.2
  have hexp : d = e :=
    calc d = Int.log 2 (x * 2 ^ d) := (hlog hx).symm
      _ = Int.log 2 (y * 2 ^ e) := by rw [h]
      _ = e := hlog hy
  subst hexp
  exact ⟨mul_right_cancel₀ (by positivity) h, rfl⟩

theorem pack754Normal_spec {f : ℚ} (hpos : 0 < f) :
    (pack754Normal f hpos).1 * 2 ^ (pack754Normal f hpos).2 = f ∧
      1 ≤ (pack754Normal f hpos).1 ∧ (pack754Normal f hpos).1 < 2 := by
  have hhalve := pack754Halve_spec f 0
  rw [zpow_zero, mul_one] at hhalve
  have hdouble := pack754Double_spec _ (pack754Halve_pos hpos 0) (pack754Halve f 0).2 hhalve.2
  rwa [hhalve.1] at hdouble

theorem pack754Normal_eq (hx : 1 ≤ x ∧ x < 2) (hpos : 0 < x * 2 ^ e) :
    pack754Normal (x * 2 ^ e) hpos = (x, e) := by
  obtain ⟨hvalue, hbounds⟩ := pack754Normal_spec hpos
  obtain ⟨hx', he'⟩ := normal_unique hbounds hx hvalue
  exact Prod.ext hx' he'

theorem abs_floatValue (hx : 1 ≤ x) : |floatValue negative x e| = x * 2 ^ e := by
  have hpos : 0 < x * 2 ^ e := mul_pos (by linarith) (by positivity)
  cases negative <;> simp [floatValue, abs_of_pos hpos]

theorem floatValue_lt_zero (hx : 1 ≤ x) : floatValue negative x e < 0 ↔ negative = true := by
  have hpos : 0 < x * 2 ^ e := mul_pos (by linarith) (by positivity)
  cases negative <;> simp [floatValue, hpos, hpos.le]

theorem floatValue_ne_zero (hx : 1 ≤ x) : floatValue negative x e ≠ 0 := by
  rw [← abs_pos, abs_floatValue hx]
  exact mul_pos (by linarith) (by positivity)

end Normal

/-! ## Words -/

section Words

variable {expbits significandbits : Nat}

/-- The word with a sign, a biased exponent and a significand. -/
def floatWord (expbits significandbits : Nat) (negative : Bool) (exp significand : Nat) : Nat :=
  (negative.toNat * 2 ^ expbits + exp) * 2 ^ significandbits + significand

/-- The bias of `expbits` bits. -/
def floatBias (expbits : Nat) : Nat := 2 ^ (expbits - 1) - 1

theorem or_eq_floatWord {negative : Bool} {exp significand : Nat} (hexp : exp < 2 ^ expbits)
    (hsignificand : significand < 2 ^ significandbits) :
    negative.toNat <<< (expbits + significandbits) ||| exp * 2 ^ significandbits ||| significand =
      floatWord expbits significandbits negative exp significand := by
  have hlow : exp * 2 ^ significandbits + significand < 2 ^ (expbits + significandbits) := by
    rw [pow_add]
    nlinarith
  rw [Nat.or_assoc, ← Nat.shiftLeft_eq exp, ← Nat.shiftLeft_add_eq_or_of_lt hsignificand,
    Nat.shiftLeft_eq exp, ← Nat.shiftLeft_add_eq_or_of_lt hlow, Nat.shiftLeft_eq, floatWord,
    pow_add]
  ring

theorem exists_floatWord {i : Nat} (hi : i < 2 ^ (expbits + significandbits + 1)) :
    ∃ negative exp significand, exp < 2 ^ expbits ∧ significand < 2 ^ significandbits ∧
      i = floatWord expbits significandbits negative exp significand := by
  have hsign : i / 2 ^ significandbits / 2 ^ expbits < 2 := by
    rw [Nat.div_div_eq_div_mul, ← pow_add, Nat.div_lt_iff_lt_mul (by positivity)]
    calc i < 2 ^ (expbits + significandbits + 1) := hi
      _ = 2 * 2 ^ (significandbits + expbits) := by ring
  refine ⟨decide (i / 2 ^ significandbits / 2 ^ expbits = 1), i / 2 ^ significandbits % 2 ^ expbits,
    i % 2 ^ significandbits, Nat.mod_lt _ (by positivity), Nat.mod_lt _ (by positivity), ?_⟩
  have htoNat : (decide (i / 2 ^ significandbits / 2 ^ expbits = 1)).toNat =
      i / 2 ^ significandbits / 2 ^ expbits := by
    interval_cases i / 2 ^ significandbits / 2 ^ expbits <;> rfl
  rw [floatWord, htoNat, Nat.div_add_mod', Nat.div_add_mod']

variable {negative : Bool} {exp significand : Nat}

theorem floatWord_mod (h : significand < 2 ^ significandbits) :
    floatWord expbits significandbits negative exp significand % 2 ^ significandbits =
      significand := by
  rw [floatWord, Nat.mul_add_mod', Nat.mod_eq_of_lt h]

theorem floatWord_div (h : significand < 2 ^ significandbits) :
    floatWord expbits significandbits negative exp significand / 2 ^ significandbits =
      negative.toNat * 2 ^ expbits + exp := by
  rw [floatWord, mul_comm, Nat.mul_add_div (by positivity), Nat.div_eq_of_lt h, Nat.add_zero]

theorem floatWord_sign (hexp : exp < 2 ^ expbits)
    (hsignificand : significand < 2 ^ significandbits) :
    floatWord expbits significandbits negative exp significand /
      2 ^ (expbits + significandbits) = negative.toNat := by
  rw [Nat.add_comm, pow_add, ← Nat.div_div_eq_div_mul, floatWord_div hsignificand, mul_comm,
    Nat.mul_add_div (by positivity), Nat.div_eq_of_lt hexp, Nat.add_zero]

/-- What `unpack754` makes of a word that is not 0. -/
theorem unpack754_floatWord (hexp : exp < 2 ^ expbits)
    (hsignificand : significand < 2 ^ significandbits)
    (hword : floatWord expbits significandbits negative exp significand ≠ 0) :
    unpack754 (floatWord expbits significandbits negative exp significand)
        (expbits + significandbits + 1) expbits =
      floatValue negative (significand / 2 ^ significandbits + 1) (exp - floatBias expbits) := by
  have hbits : expbits + significandbits + 1 - expbits - 1 = significandbits := by omega
  have hexp' : (negative.toNat * 2 ^ expbits + exp) % 2 ^ expbits = exp := by
    rw [Nat.mul_add_mod', Nat.mod_eq_of_lt hexp]
  have hsign : (if negative.toNat &&& 1 = 1 then (-1 : ℚ) else 1) =
      if negative then -1 else 1 := by
    cases negative <;> rfl
  simp only [unpack754, hword, if_false, hbits, Nat.one_shiftLeft, Nat.shiftRight_eq_div_pow,
    Nat.and_two_pow_sub_one_eq_mod, Nat.add_sub_cancel, unpack754_loops]
  rw [floatWord_mod hsignificand, floatWord_div hsignificand, floatWord_sign hexp hsignificand,
    hexp', hsign, floatValue, floatBias]
  ring

/-- What `pack754` makes of a number with an exponent in range. -/
theorem pack754_floatValue {x : ℚ} {e : Int} (hx : 1 ≤ x ∧ x < 2)
    (hbits : expbits + significandbits < 64)
    (hexp : exp < 2 ^ expbits) (he : e + floatBias expbits = exp) :
    pack754 (floatValue negative x e) (expbits + significandbits + 1) expbits =
      negative.toNat <<< (expbits + significandbits) ||| exp * 2 ^ significandbits |||
        packedSignificand significandbits x := by
  have hwidth : expbits + significandbits + 1 - expbits - 1 = significandbits := by omega
  have hpos : 0 < x * 2 ^ e := mul_pos (by linarith) (by positivity)
  have hnormal : ∀ h, pack754Normal |floatValue negative x e| h = (x, e) := by
    rw [abs_floatValue hx.1]
    exact fun h => pack754Normal_eq hx h
  have hsign : (if negative = true then 1 else 0) = negative.toNat := by cases negative <;> rfl
  have hstored : ofSigned 8 ((exp : Int) * 2 ^ significandbits) = exp * 2 ^ significandbits := by
    have hlt : exp * 2 ^ significandbits < 256 ^ 8 := by
      calc exp * 2 ^ significandbits < 2 ^ expbits * 2 ^ significandbits :=
            Nat.mul_lt_mul_of_pos_right hexp (by positivity)
        _ = 2 ^ (expbits + significandbits) := (pow_add ..).symm
        _ ≤ 2 ^ 64 := Nat.pow_le_pow_right (by norm_num) hbits.le
        _ = 256 ^ 8 := by norm_num
    rw [ofSigned, Int.emod_eq_of_lt (by positivity) (by exact_mod_cast hlt)]
    exact_mod_cast Int.toNat_natCast (exp * 2 ^ significandbits)
  rw [pack754]
  simp only [floatValue_ne_zero hx.1, dite_false, floatValue_lt_zero hx.1, hnormal, hwidth,
    Nat.add_sub_cancel, hsign, Nat.one_shiftLeft]
  rw [← floatBias, he, hstored]

/-! ### The digits that are kept -/

/-- Up to 22 bits the half has a place in a `float`. -/
theorem significandScale_of_le (h : significandbits ≤ 22) :
    significandScale significandbits = 2 ^ significandbits + 1 / 2 := by
  refine BinaryFormat.round_of_holds ⟨2 ^ (significandbits + 1) + 1, -1, ?_, by decide, ?_⟩
  · have hpow : (2 : Int) ^ (significandbits + 1) ≤ 2 ^ 23 :=
      pow_le_pow_right₀ (by norm_num) (by omega)
    rw [abs_of_pos (by positivity)]
    calc (2 : Int) ^ (significandbits + 1) + 1 ≤ 2 ^ 23 + 1 := by linarith
      _ < 2 ^ float.digits := by decide
  · push_cast
    rw [pow_succ]
    norm_num
    ring

/-- Above 22 bits the half is lost. -/
theorem significandScale_of_lt (h : 22 < significandbits) :
    significandScale significandbits = 2 ^ significandbits := by
  obtain ⟨k, rfl⟩ : ∃ k, significandbits = 23 + k := ⟨significandbits - 23, by omega⟩
  have hpow : (1 : ℚ) ≤ 2 ^ k := one_le_pow₀ (by norm_num)
  have hlog : Int.log 2 |(2 : ℚ) ^ (23 + k) + 1 / 2| = ((23 + k : Nat) : Int) := by
    have hlarge : (1 : ℚ) < 2 ^ (23 + k) := one_lt_pow₀ (by norm_num) (by omega)
    rw [abs_of_pos (by positivity)]
    refine log_eq_of_lt ?_ ?_
    · rw [zpow_natCast]
      linarith
    · rw [zpow_add_one₀ (by norm_num), zpow_natCast]
      linarith
  have hunit : float.unit (2 ^ (23 + k) + 1 / 2) = k := by
    rw [BinaryFormat.unit, hlog, float]
    push_cast
    omega
  have heven : roundEven (((2 : ℚ) ^ (23 + k) + 1 / 2) / 2 ^ k) = 2 ^ 23 := by
    have hquotient : ((2 : ℚ) ^ (23 + k) + 1 / 2) / 2 ^ k = 2 ^ 23 + 1 / 2 / 2 ^ k := by
      rw [pow_add]
      field_simp
    have hhalf : (1 : ℚ) / 2 / 2 ^ k ≤ 1 / 2 := div_le_self (by norm_num) hpow
    have hpos : (0 : ℚ) < 1 / 2 / 2 ^ k := by positivity
    refine roundEven_eq_of_even (by decide) ?_ ?_
    · rw [hquotient]
      push_cast
      linarith
    · rw [hquotient]
      push_cast
      linarith
  rw [significandScale, BinaryFormat.round, hunit, zpow_natCast, heven, pow_add]
  norm_num

theorem le_significandScale (significandbits : Nat) :
    2 ^ significandbits ≤ significandScale significandbits := by
  rcases le_or_gt significandbits 22 with h | h
  · rw [significandScale_of_le h]
    linarith
  · rw [significandScale_of_lt h]

theorem significandScale_le (significandbits : Nat) :
    significandScale significandbits ≤ 2 ^ significandbits + 1 / 2 := by
  rcases le_or_gt significandbits 22 with h | h
  · rw [significandScale_of_le h]
  · rw [significandScale_of_lt h]
    linarith

section Product

variable {x : ℚ}

/-- The exact product of a normalized form and the scale. -/
theorem scaled_bounds (hx : 1 ≤ x ∧ x < 2) (significandbits : Nat) :
    (x - 1) * 2 ^ significandbits ≤ (x - 1) * significandScale significandbits ∧
      (x - 1) * significandScale significandbits < 2 ^ significandbits + 1 / 2 := by
  have hle := le_significandScale significandbits
  have hge := significandScale_le significandbits
  have hpow : (0 : ℚ) < 2 ^ significandbits := by positivity
  refine ⟨mul_le_mul_of_nonneg_left hle (by linarith), ?_⟩
  calc (x - 1) * significandScale significandbits
      < 1 * significandScale significandbits :=
        mul_lt_mul_of_pos_right (by linarith) (by linarith)
    _ ≤ 2 ^ significandbits + 1 / 2 := by linarith

/-- The product is cut off, and may have been rounded up before. -/
theorem packedSignificand_spec (hx : 1 ≤ x ∧ x < 2) (hbits : significandbits ≤ 62) :
    (x - 1) * significandScale significandbits < packedSignificand significandbits x + 1 ∧
      (packedSignificand significandbits x : ℚ) ≤
        (x - 1) * significandScale significandbits + 2 ^ significandbits / 2 ^ 64 := by
  obtain ⟨hlow, hhigh⟩ := scaled_bounds hx significandbits
  have hpow : (1 : ℚ) ≤ 2 ^ significandbits := one_le_pow₀ (by norm_num)
  have hpow' : (2 : ℚ) ^ significandbits ≤ 2 ^ 62 := pow_le_pow_right₀ (by norm_num) hbits
  have hnonneg : 0 ≤ (x - 1) * significandScale significandbits :=
    le_trans (mul_nonneg (by linarith) (by positivity)) hlow
  have hdown := BinaryFormat.natCast_le_round (F := longDouble) (Nat.floor_le hnonneg)
    (lt_of_lt_of_le hhigh (by norm_num [longDouble]; linarith)) (by decide)
  have herror := BinaryFormat.abs_round_sub_le (F := longDouble) (n := significandbits + 1)
    (x := (x - 1) * significandScale significandbits)
    (by
      rw [abs_of_nonneg hnonneg, zpow_add_one₀ (by norm_num), zpow_natCast]
      linarith)
    (by simp only [longDouble]; omega)
  constructor
  · calc (x - 1) * significandScale significandbits
        < ⌊(x - 1) * significandScale significandbits⌋₊ + 1 := Nat.lt_floor_add_one _
      _ ≤ packedSignificand significandbits x + 1 := by
          gcongr
          exact Nat.le_floor hdown
  · have hround := (Nat.floor_le (Nat.cast_nonneg _ |>.trans hdown)).trans
      (sub_le_iff_le_add'.mp (le_of_abs_le herror))
    refine hround.trans_eq ?_
    congr 1
    rw [longDouble, zpow_sub₀ (by norm_num), zpow_add_one₀ (by norm_num), zpow_natCast]
    norm_num
    ring

/-- The digits are those of `x`, but for the half that the code adds to the scale. -/
theorem packedSignificand_close (hx : 1 ≤ x ∧ x < 2) (hbits : significandbits ≤ 62) :
    (packedSignificand significandbits x : ℚ) - 1 / 2 < (x - 1) * 2 ^ significandbits ∧
      (x - 1) * 2 ^ significandbits < packedSignificand significandbits x + 1 := by
  obtain ⟨hlow, hhigh⟩ := scaled_bounds hx significandbits
  obtain ⟨hlt, hle⟩ := packedSignificand_spec hx hbits
  have hpow : (1 : ℚ) ≤ 2 ^ significandbits := one_le_pow₀ (by norm_num)
  refine ⟨?_, hlow.trans_lt hlt⟩
  rcases le_or_gt significandbits 22 with h | h
  · -- a product that is rounded up to an integer is at most the power, so `x` is not near 2
    have hpow' : (2 : ℚ) ^ significandbits ≤ 2 ^ 22 := pow_le_pow_right₀ (by norm_num) h
    rw [significandScale_of_le h] at hle hhigh
    have hcut : packedSignificand significandbits x ≤ 2 ^ significandbits := by
      have hcut' : (packedSignificand significandbits x : ℚ) < 2 ^ significandbits + 1 := by
        linarith
      exact Nat.lt_add_one_iff.mp (by exact_mod_cast hcut')
    have hcut' : (packedSignificand significandbits x : ℚ) ≤ 2 ^ significandbits := by
      exact_mod_cast hcut
    by_contra hfar
    nlinarith
  · have hpow' : (2 : ℚ) ^ significandbits ≤ 2 ^ 62 := pow_le_pow_right₀ (by norm_num) hbits
    rw [significandScale_of_lt h] at hle
    linarith

end Product

theorem packedSignificand_le {x : ℚ} (hx : 1 ≤ x ∧ x < 2) (hbits : significandbits ≤ 62) :
    packedSignificand significandbits x ≤ 2 ^ significandbits := by
  have hclose := (packedSignificand_close hx hbits).1
  have hpow : (0 : ℚ) < 2 ^ significandbits := by positivity
  have hlt : (packedSignificand significandbits x : ℚ) < 2 ^ significandbits + 1 := by nlinarith
  exact Nat.lt_add_one_iff.mp (by exact_mod_cast hlt)

theorem normal_of_digits (h : significand < 2 ^ significandbits) :
    (1 : ℚ) ≤ significand / 2 ^ significandbits + 1 ∧
      (significand : ℚ) / 2 ^ significandbits + 1 < 2 := by
  have hpow : (0 : ℚ) < 2 ^ significandbits := by positivity
  have hdigits : (significand : ℚ) + 1 ≤ 2 ^ significandbits := by exact_mod_cast h
  have hnonneg : (0 : ℚ) ≤ significand / 2 ^ significandbits := by positivity
  have hlt : (significand : ℚ) / 2 ^ significandbits < 1 := by
    rw [div_lt_one hpow]
    linarith
  constructor <;> linarith

/-- Digits that fit are kept as they are. -/
theorem packedSignificand_digits (hbits : significandbits ≤ 62)
    (h : significand < 2 ^ significandbits) :
    packedSignificand significandbits (significand / 2 ^ significandbits + 1) = significand := by
  have hpow : (0 : ℚ) < 2 ^ significandbits := by positivity
  obtain ⟨hlow, hhigh⟩ := packedSignificand_close (normal_of_digits h) hbits
  rw [add_sub_cancel_right, div_mul_cancel₀ _ hpow.ne'] at hlow hhigh
  have hle : packedSignificand significandbits (significand / 2 ^ significandbits + 1) <
      significand + 1 := by
    exact_mod_cast (by linarith :
      (packedSignificand significandbits (significand / 2 ^ significandbits + 1) : ℚ) <
        significand + 1)
  have hge : significand <
      packedSignificand significandbits (significand / 2 ^ significandbits + 1) + 1 := by
    exact_mod_cast hhigh
  omega

end Words

/-! ## Packing what was unpacked -/

/-- The widths with which the two functions stay far from the ends of a `long double`. -/
structure FloatWidths (bits expbits : Nat) : Prop where
  one_le : 1 ≤ expbits
  expbits_le : expbits ≤ 14
  expbits_lt : expbits + 2 ≤ bits
  bits_le : bits ≤ 64

/-- Each word is the one that its number is packed into. -/
theorem pack754_unpack754 {bits expbits i : Nat} (h : FloatWidths bits expbits)
    (hi : i < 2 ^ bits) : pack754 (unpack754 i bits expbits) bits expbits = i := by
  obtain ⟨hone, -, hlt, hbits⟩ := h
  obtain ⟨significandbits, rfl⟩ : ∃ n, bits = expbits + n + 1 := ⟨bits - expbits - 1, by omega⟩
  obtain ⟨negative, exp, significand, hexp, hsignificand, rfl⟩ := exists_floatWord hi
  by_cases hword : floatWord expbits significandbits negative exp significand = 0
  · rw [hword]
    simp [unpack754, pack754]
  rw [unpack754_floatWord hexp hsignificand hword,
    pack754_floatValue (normal_of_digits hsignificand) (by omega) hexp (by omega),
    packedSignificand_digits (by omega) hsignificand,
    or_eq_floatWord hexp hsignificand]

/-- Every word of 16 bits stands for a `float`. -/
theorem convert_unpack754 {i : Nat} (hi : i < 2 ^ 16) :
    float.convert (unpack754 i 16 5) = some (unpack754 i 16 5) := by
  by_cases hzero : i = 0
  · subst hzero
    exact BinaryFormat.convert_of_holds ⟨0, 0, by decide, by decide, by simp [unpack754]⟩
      (by simp [unpack754, float])
  obtain ⟨negative, exp, significand, hexp, hsignificand, rfl⟩ : ∃ negative exp significand,
      exp < 2 ^ 5 ∧ significand < 2 ^ 10 ∧ i = floatWord 5 10 negative exp significand :=
    exists_floatWord hi
  have hx := normal_of_digits hsignificand
  rw [unpack754_floatWord hexp hsignificand hzero]
  -- 11 digits, above the unit of the smallest exponent
  refine BinaryFormat.convert_of_holds
    ⟨(if negative then -1 else 1) * (significand + 2 ^ 10), exp - 25, ?_, ?_, ?_⟩ ?_
  · have hsign : |if negative then (-1 : Int) else 1| = 1 := by cases negative <;> rfl
    have hdigits : (significand : Int) + 2 ^ 10 < 2 ^ 24 := by omega
    rw [abs_mul, hsign, one_mul, abs_of_nonneg (by positivity)]
    exact hdigits
  · simp only [float]
    omega
  · have hsplit : (2 : ℚ) ^ ((exp : Int) - floatBias 5) = 2 ^ 10 * 2 ^ ((exp : Int) - 25) := by
      rw [← zpow_natCast, ← zpow_add₀ (by norm_num)]
      congr 1
      simp only [floatBias]
      omega
    rw [floatValue, hsplit]
    push_cast
    cases negative <;> simp <;> ring
  · rw [abs_floatValue hx.1]
    calc ((significand : ℚ) / 2 ^ 10 + 1) * 2 ^ ((exp : Int) - floatBias 5)
        ≤ 2 * 2 ^ (16 : Int) := by
          gcongr
          · exact hx.2.le
          · norm_num
          · simp only [floatBias]
            omega
      _ < 2 ^ float.top := by norm_num [float]

/-! ## Unpacking what was packed -/

section Rounding

variable {expbits significandbits exp : Nat} {negative : Bool} {x : ℚ} {e : Int}

theorem floatWord_eq_zero_iff {significand : Nat} :
    floatWord expbits significandbits negative exp significand = 0 ↔
      negative = false ∧ exp = 0 ∧ significand = 0 := by
  cases negative <;> simp [floatWord]

theorem or_one (n : Nat) : n ||| 1 = if Odd n then n else n + 1 := by
  have heven : ∀ k, 2 * k ||| 1 = 2 * k + 1 := fun k => by
    simpa [Nat.shiftLeft_eq, mul_comm] using
      (Nat.shiftLeft_add_eq_or_of_lt (show 1 < 2 ^ 1 by norm_num) k).symm
  split
  case isTrue hodd =>
    obtain ⟨k, rfl⟩ := hodd
    rw [← heven, Nat.or_assoc, Nat.or_self]
  case isFalse hodd =>
    obtain ⟨k, rfl⟩ := Nat.not_odd_iff_even.mp hodd
    rw [← two_mul, heven]

/-- A significand of all ones and a 1 that is carried. -/
theorem or_carry_eq_floatWord (hexpbits : 1 ≤ expbits) (hexp : exp < 2 ^ expbits) :
    negative.toNat <<< (expbits + significandbits) ||| exp * 2 ^ significandbits |||
        2 ^ significandbits =
      floatWord expbits significandbits negative (if Odd exp then exp else exp + 1) 0 := by
  have hone : exp ||| 1 < 2 ^ expbits :=
    Nat.or_lt_two_pow hexp (Nat.one_lt_two_pow (by omega))
  have hcarried : exp * 2 ^ significandbits ||| 2 ^ significandbits =
      (exp ||| 1) * 2 ^ significandbits := by
    rw [← Nat.shiftLeft_eq, ← Nat.shiftLeft_eq, Nat.shiftLeft_or_distrib, Nat.one_shiftLeft]
  rw [Nat.or_assoc, hcarried, ← or_eq_floatWord (or_one exp ▸ hone) (by positivity), or_one,
    Nat.or_zero]

/-- What comes back of a number with an exponent in range: its first digits, but 0 for the
smallest positive ones. Where all digits are ones, the 1 that `pack754` carries goes into the
exponent, and is lost when the exponent is odd. -/
theorem unpack754_pack754 (hx : 1 ≤ x ∧ x < 2) (hexpbits : 1 ≤ expbits)
    (hbits : expbits + significandbits < 64) (hexp : exp < 2 ^ expbits)
    (he : e + floatBias expbits = exp) :
    unpack754 (pack754 (floatValue negative x e) (expbits + significandbits + 1) expbits)
        (expbits + significandbits + 1) expbits =
      if packedSignificand significandbits x = 2 ^ significandbits then
        floatValue negative 1 (if Odd exp then e else e + 1)
      else if negative = false ∧ exp = 0 ∧ packedSignificand significandbits x = 0 then 0
      else
        floatValue negative (packedSignificand significandbits x / 2 ^ significandbits + 1) e := by
  have hbias : e = exp - floatBias expbits := by omega
  rw [pack754_floatValue hx hbits hexp he]
  split
  case isTrue hcarry =>
    have hone : exp ||| 1 < 2 ^ expbits :=
      Nat.or_lt_two_pow hexp (Nat.one_lt_two_pow (by omega))
    have hword : floatWord expbits significandbits negative (exp ||| 1) 0 ≠ 0 := by
      rw [Ne, floatWord_eq_zero_iff, or_one]
      split
      case isTrue hodd =>
        have := hodd.pos
        omega
      case isFalse => omega
    rw [hcarry, or_carry_eq_floatWord hexpbits hexp, ← or_one,
      unpack754_floatWord hone (by positivity) hword, or_one, hbias]
    split
    case isTrue => simp
    case isFalse =>
      push_cast
      rw [zero_div, zero_add, add_sub_right_comm]
  case isFalse hcarry =>
    have hlt : packedSignificand significandbits x < 2 ^ significandbits :=
      lt_of_le_of_ne (packedSignificand_le hx (by omega)) hcarry
    rw [or_eq_floatWord hexp hlt]
    split
    case isTrue hzero =>
      obtain ⟨rfl, rfl, hsignificand⟩ := hzero
      simp [floatWord, hsignificand, unpack754]
    case isFalse hzero =>
      rw [unpack754_floatWord hexp hlt (floatWord_eq_zero_iff.not.mpr hzero), ← hbias]

/-- The error of a number, in units of its last digit. -/
theorem floatValue_sub_mul_lt_iff (y : ℚ) :
    |floatValue negative y e - floatValue negative x e| * 2 ^ significandbits < 2 ^ e ↔
      |y - x| * 2 ^ significandbits < 1 := by
  have hunit : (0 : ℚ) < 2 ^ e := by positivity
  have herror : |floatValue negative y e - floatValue negative x e| = |y - x| * 2 ^ e := by
    have hsub : floatValue negative y e - floatValue negative x e =
        (if negative then -1 else 1) * ((y - x) * 2 ^ e) := by
      rw [floatValue, floatValue]
      ring
    rw [hsub, abs_mul, abs_mul, abs_of_pos hunit]
    cases negative <;> simp
  rw [herror, mul_right_comm, mul_lt_iff_lt_one_left hunit]

/-- A number with an exponent in range comes back with an error below one unit of its last
digit, unless it is a smallest positive one, which comes back as 0, or its digits are all ones
and its exponent is odd: then half of it comes back. -/
theorem unpack754_pack754_close_iff {bits : Nat} (hwidths : FloatWidths bits expbits)
    (hx : 1 ≤ x ∧ x < 2) (hexp : exp < 2 ^ expbits) (he : e + floatBias expbits = exp) :
    |unpack754 (pack754 (floatValue negative x e) bits expbits) bits expbits -
        floatValue negative x e| < 2 ^ (e - (bits - expbits - 1 : Nat)) ↔
      ¬ (negative = false ∧ exp = 0 ∧ packedSignificand (bits - expbits - 1) x = 0) ∧
        ¬ (Odd exp ∧ packedSignificand (bits - expbits - 1) x = 2 ^ (bits - expbits - 1)) := by
  obtain ⟨hexpbits, -, hwidth, hbits⟩ := hwidths
  obtain ⟨significandbits, rfl, hpos⟩ : ∃ n, bits = expbits + n + 1 ∧ 1 ≤ n :=
    ⟨bits - expbits - 1, by omega, by omega⟩
  have hdigits : expbits + significandbits + 1 - expbits - 1 = significandbits := by omega
  have hsignificandbits : significandbits ≤ 62 := by omega
  obtain ⟨hlow, hhigh⟩ := packedSignificand_close hx hsignificandbits
  -- one unit of the last digit is at most half of the power
  have hpow : (2 : ℚ) ≤ 2 ^ significandbits := by
    calc (2 : ℚ) = 2 ^ 1 := by norm_num
      _ ≤ 2 ^ significandbits := pow_le_pow_right₀ (by norm_num) hpos
  have hunit : (0 : ℚ) < 2 ^ e := by positivity
  have hstep : (2 : ℚ) ^ (e - significandbits) = 2 ^ e / 2 ^ significandbits := by
    rw [zpow_sub₀ (by norm_num), zpow_natCast]
  rw [hdigits, unpack754_pack754 hx hexpbits (by omega) hexp he, hstep, lt_div_iff₀ (by positivity)]
  by_cases hcarry : packedSignificand significandbits x = 2 ^ significandbits
  · rw [hcarry] at hlow
    push_cast at hlow
    -- the carry: all digits are ones, and `x` is less than one unit below 2
    have hnonzero : packedSignificand significandbits x ≠ 0 := by
      rw [hcarry]
      positivity
    rw [if_pos hcarry]
    by_cases hodd : Odd exp
    · -- the carry is lost in the odd exponent
      refine iff_of_false ?_ fun h => h.2 ⟨hodd, hcarry⟩
      rw [if_pos hodd, floatValue_sub_mul_lt_iff, abs_sub_comm, abs_of_nonneg (by linarith), not_lt]
      linarith
    · refine iff_of_true ?_ ⟨fun h => hnonzero h.2.2, fun h => hodd h.1⟩
      -- the carry makes the even exponent one larger
      have hdouble : floatValue negative 1 (e + 1) = floatValue negative 2 e := by
        rw [floatValue, floatValue, zpow_add_one₀ (by norm_num)]
        ring
      rw [if_neg hodd, hdouble, floatValue_sub_mul_lt_iff, abs_of_nonneg (by linarith)]
      linarith
  · rw [if_neg hcarry]
    by_cases hzero : negative = false ∧ exp = 0 ∧ packedSignificand significandbits x = 0
    · -- the word is 0, which stands for the number 0
      refine iff_of_false ?_ fun h => h.1 hzero
      rw [if_pos hzero, zero_sub, abs_neg, abs_floatValue hx.1, not_lt]
      have hone : 1 * (2 : ℚ) ^ e ≤ x * 2 ^ e := mul_le_mul_of_nonneg_right hx.1 hunit.le
      nlinarith
    · refine iff_of_true ?_ ⟨hzero, fun h => hcarry h.2⟩
      -- otherwise the error is that of the digits
      have herror : |(packedSignificand significandbits x / 2 ^ significandbits + 1 - x : ℚ)| *
          2 ^ significandbits =
            |packedSignificand significandbits x - (x - 1) * 2 ^ significandbits| := by
        rw [← abs_of_pos (show (0 : ℚ) < 2 ^ significandbits by positivity), ← abs_mul,
          abs_of_pos (show (0 : ℚ) < 2 ^ significandbits by positivity)]
        congr 1
        field_simp
        ring
      rw [if_neg hzero, floatValue_sub_mul_lt_iff, herror, abs_lt]
      constructor <;> linarith

end Rounding

/-- A number just below 2 comes back from 16 bits as 1. -/
theorem unpack754_pack754_close_iff_ones :
    ¬ |unpack754 (pack754 (floatValue false (8191 / 4096) 0) 16 5) 16 5 -
      floatValue false (8191 / 4096) 0| < 2 ^ (0 - ((16 - 5 - 1 : Nat) : Int)) := by
  have hones : packedSignificand (16 - 5 - 1) (8191 / 4096) = 2 ^ (16 - 5 - 1) := by
    rw [packedSignificand, significandScale_of_le (by norm_num),
      BinaryFormat.round_of_holds ⟨8390655, -13, by decide, by decide, by norm_num⟩,
      Nat.floor_eq_iff (by norm_num)]
    norm_num
  have hiff := @unpack754_pack754_close_iff 5 15 false (8191 / 4096) 0 16 ⟨by norm_num,
    by norm_num, by norm_num, by norm_num⟩ (by norm_num) (by norm_num) (by decide)
  exact fun h => (hiff.mp h).2 ⟨by decide, hones⟩

end SelectServer
