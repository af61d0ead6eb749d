import Mathlib.Data.Int.Log
import Mathlib.Data.Rat.Floor
import Mathlib.Tactic

/-!
# Binary floating point formats

A finite floating point number is a rational number. A format keeps a number of binary digits
above a smallest unit, and the result of an operation is the exact one rounded to a multiple of
its unit, ties to even (`BinaryFormat.round`). A conversion to the format fails on numbers
beyond its range (`BinaryFormat.convert`).
-/

namespace CLib

/-! ## Integers -/

/-- The nearest integer, of two the even one. -/
def roundEven (x : ℚ) : Int :=
  if 2 * Int.fract x < 1 ∨ (2 * Int.fract x = 1 ∧ Even ⌊x⌋) then ⌊x⌋ else ⌊x⌋ + 1

section Integers

variable {x : ℚ}

theorem floor_le_roundEven (x : ℚ) : ⌊x⌋ ≤ roundEven x := by
  unfold roundEven
  split <;> omega

theorem roundEven_intCast (k : Int) : roundEven k = k := by
  simp [roundEven]

/-- A number at most a half above an even integer. -/
theorem roundEven_eq_of_even {k : Int} (heven : Even k) (hle : (k : ℚ) ≤ x)
    (hhalf : 2 * (x - k) ≤ 1) : roundEven x = k := by
  have hfloor : ⌊x⌋ = k := Int.floor_eq_iff.mpr ⟨hle, by linarith⟩
  have hfract : 2 * Int.fract x ≤ 1 := by
    rwa [Int.fract, hfloor]
  rw [roundEven, hfloor, if_pos]
  exact hfract.lt_or_eq.imp id fun heq => ⟨heq, heven⟩

theorem abs_roundEven_sub_le (x : ℚ) : |(roundEven x : ℚ) - x| ≤ 1 / 2 := by
  have hsplit := Int.floor_add_fract x
  have hnonneg := Int.fract_nonneg x
  have hlt := Int.fract_lt_one x
  rw [roundEven, abs_le]
  split
  case isTrue hlow =>
    have hhalf : 2 * Int.fract x ≤ 1 := hlow.elim le_of_lt fun h => h.1.le
    constructor <;> linarith
  case isFalse hhigh =>
    have hhalf : 1 ≤ 2 * Int.fract x := not_lt.mp fun h => hhigh (Or.inl h)
    push_cast
    constructor <;> linarith

end Integers

/-- The exponent of a number between two powers of two. -/
theorem log_eq_of_lt {x : ℚ} {n : Int} (hge : 2 ^ n ≤ x) (hlt : x < 2 ^ (n + 1)) :
    Int.log 2 x = n := by
  have hpos : 0 < x := lt_of_lt_of_le (by positivity) hge
  apply le_antisymm
  · rw [← Int.lt_add_one_iff, ← Int.lt_zpow_iff_log_lt Nat.one_lt_two hpos]
    exact_mod_cast hlt
  · rw [← Int.zpow_le_iff_le_log Nat.one_lt_two hpos]
    exact_mod_cast hge

/-! ## Formats -/

/-- A binary format: the digits of its numbers, the exponent of its smallest unit, and the
exponent that no finite number reaches. -/
structure BinaryFormat where
  digits : Nat
  least : Int
  top : Int

namespace BinaryFormat

variable (F : BinaryFormat)

/-- The exponent of the unit in the last place of a number. -/
def unit (x : ℚ) : Int := max (Int.log 2 |x| + 1 - F.digits) F.least

/-- A number rounded to the format. -/
def round (x : ℚ) : ℚ := roundEven (x / 2 ^ F.unit x) * 2 ^ F.unit x

/-- The conversion of a number to the format, with none for an infinity. -/
def convert (x : ℚ) : Option ℚ := if |F.round x| < 2 ^ F.top then some (F.round x) else none

/-- The numbers of the format. -/
def Holds (x : ℚ) : Prop := ∃ (k : Int) (e : Int), |k| < 2 ^ F.digits ∧ F.least ≤ e ∧ x = k * 2 ^ e

variable {F} {x : ℚ}

theorem unit_pos (x : ℚ) : (0 : ℚ) < 2 ^ F.unit x := by positivity

/-- The unit of a number that is not 0 is small. -/
theorem unit_le {n : Int} (hne : x ≠ 0) (hlt : |x| < 2 ^ n) (hleast : F.least ≤ n - F.digits) :
    F.unit x ≤ n - F.digits := by
  have hlog : Int.log 2 |x| < n :=
    (Int.lt_zpow_iff_log_lt Nat.one_lt_two (abs_pos.mpr hne)).mp (by exact_mod_cast hlt)
  exact max_le (by omega) hleast

theorem round_eq_of_unit {k e : Int} (hunit : F.unit x ≤ e) (hx : x = k * 2 ^ e) :
    F.round x = x := by
  obtain ⟨n, hn⟩ := Int.eq_ofNat_of_zero_le (Int.sub_nonneg.mpr hunit)
  have hsplit : (2 : ℚ) ^ e = 2 ^ n * 2 ^ F.unit x := by
    rw [← zpow_natCast, ← zpow_add₀ (by norm_num), ← hn, sub_add_cancel]
  have hquotient : x / 2 ^ F.unit x = ((k * 2 ^ n : Int) : ℚ) := by
    rw [div_eq_iff (unit_pos x).ne']
    push_cast
    rw [mul_assoc, ← hsplit, ← hx]
  rw [round, hquotient, roundEven_intCast, ← hquotient, div_mul_cancel₀ _ (unit_pos x).ne']

theorem round_zero : F.round 0 = 0 := by
  have hzero : roundEven 0 = 0 := by simpa using roundEven_intCast 0
  simp [round, hzero]

/-- The numbers of the format stay as they are. -/
theorem round_of_holds (h : F.Holds x) : F.round x = x := by
  obtain ⟨k, e, hk, he, rfl⟩ := h
  by_cases hzero : k = 0
  · simp [hzero, round_zero]
  have hk' : |(k : ℚ)| < 2 ^ F.digits := by exact_mod_cast hk
  have hpos : (0 : ℚ) < 2 ^ e := by positivity
  refine round_eq_of_unit (k := k) (e := e) ?_ rfl
  refine (unit_le (n := e + F.digits) (mul_ne_zero (by exact_mod_cast hzero) hpos.ne') ?_
    (by omega)).trans (by omega)
  rw [abs_mul, abs_of_pos hpos, zpow_add₀ (by norm_num), zpow_natCast, mul_comm]
  exact mul_lt_mul_of_pos_left hk' hpos

theorem convert_of_holds (h : F.Holds x) (htop : |x| < 2 ^ F.top) : F.convert x = some x := by
  rw [convert, round_of_holds h, if_pos htop]

/-- The error is at most half a unit. -/
theorem abs_round_sub_le {n : Int} (hlt : |x| < 2 ^ n) (hleast : F.least ≤ n - F.digits) :
    |F.round x - x| ≤ 2 ^ (n - F.digits) / 2 := by
  by_cases hzero : x = 0
  · rw [hzero, round_zero, sub_zero, abs_zero]
    positivity
  have hunit := unit_pos (F := F) x
  have hsplit : F.round x - x =
      (roundEven (x / 2 ^ F.unit x) - x / 2 ^ F.unit x) * 2 ^ F.unit x := by
    rw [round, sub_mul, div_mul_cancel₀ _ hunit.ne']
  calc |F.round x - x|
      = |roundEven (x / 2 ^ F.unit x) - x / 2 ^ F.unit x| * 2 ^ F.unit x := by
        rw [hsplit, abs_mul, abs_of_pos hunit]
    _ ≤ 1 / 2 * 2 ^ F.unit x := mul_le_mul_of_nonneg_right (abs_roundEven_sub_le _) hunit.le
    _ ≤ 1 / 2 * 2 ^ (n - F.digits) := by
        gcongr
        · norm_num
        · exact unit_le hzero hlt hleast
    _ = 2 ^ (n - F.digits) / 2 := by ring

/-- No number is rounded down past an integer. -/
theorem natCast_le_round {m : Nat} (hle : (m : ℚ) ≤ x) (hlt : x < 2 ^ F.digits)
    (hleast : F.least ≤ 0) : (m : ℚ) ≤ F.round x := by
  by_cases hzero : x = 0
  · rwa [hzero, round_zero, ← hzero]
  have hnonneg : 0 ≤ x := m.cast_nonneg.trans hle
  have hunit := unit_pos (F := F) x
  have hint : F.unit x ≤ 0 := by
    have hle := unit_le (F := F) (n := F.digits) hzero
      (by rwa [abs_of_nonneg hnonneg, zpow_natCast]) (by simpa using hleast)
    simpa using hle
  obtain ⟨k, hk⟩ := Int.eq_ofNat_of_zero_le (Int.neg_nonneg.mpr hint)
  have hscale : (2 : ℚ) ^ F.unit x = (2 ^ k)⁻¹ := by
    rw [← zpow_natCast, ← hk, zpow_neg, inv_inv]
  -- the integer is a multiple of the unit
  have hfloor : ((m * 2 ^ k : Nat) : Int) ≤ ⌊x / 2 ^ F.unit x⌋ := by
    rw [Int.le_floor, hscale, div_inv_eq_mul]
    push_cast
    gcongr
  have hround : (m : ℚ) * 2 ^ k ≤ roundEven (x / 2 ^ F.unit x) := by
    exact_mod_cast hfloor.trans (floor_le_roundEven _)
  calc (m : ℚ) = m * 2 ^ k * 2 ^ F.unit x := by
        rw [hscale, mul_assoc, mul_inv_cancel₀ (by positivity), mul_one]
    _ ≤ F.round x := mul_le_mul_of_nonneg_right hround hunit.le

end BinaryFormat

end CLib
