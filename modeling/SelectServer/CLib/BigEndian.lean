import SelectServer.CLib.Numbers

/-!
# Big-endian words

The bytes of a number with the most significant one first, for any width, and the number
a row of bytes stands for. What is written in `width` bytes is read back modulo
`256 ^ width`, and a signed number is read back by `toSigned` when it fits.
-/

namespace CLib

/-- The low `width` bytes of a number, the most significant first. -/
def bigEndian : Nat → Nat → List UInt8
  | 0, _ => []
  | width + 1, n => UInt8.ofNat (n >>> (8 * width)) :: bigEndian width n

/-- The number that bytes stand for, the most significant first. -/
def ofBigEndian (bs : List UInt8) : Nat := bs.foldl (fun acc b => acc * 256 + b.toNat) 0

/-- Two's complement: a number of `width` bytes read as a signed one. -/
def toSigned (width n : Nat) : Int := if 2 * n < 256 ^ width then n else n - 256 ^ width

/-- Two's complement: a signed number as a number of `width` bytes. -/
def ofSigned (width : Nat) (z : Int) : Nat := (z % 256 ^ width).toNat

@[simp] theorem length_bigEndian (width n : Nat) : (bigEndian width n).length = width := by
  induction width with
  | zero => rfl
  | succ width ih => simp [bigEndian, ih]

private theorem foldl_bigEndian (width n acc : Nat) :
    (bigEndian width n).foldl (fun acc b => acc * 256 + b.toNat) acc =
      acc * 256 ^ width + n % 256 ^ width := by
  induction width generalizing acc with
  | zero => simp [bigEndian, Nat.mod_one]
  | succ width ih =>
    have hbyte : (UInt8.ofNat (n >>> (8 * width))).toNat = n / 256 ^ width % 256 := by
      rw [UInt8.toNat_ofNat', Nat.shiftRight_eq_div_pow, pow_mul]
      norm_num
    rw [bigEndian, List.foldl_cons, ih, hbyte, Nat.mod_pow_succ]
    ring

/-- What is written in `width` bytes is read back modulo `256 ^ width`. -/
theorem ofBigEndian_bigEndian (width n : Nat) :
    ofBigEndian (bigEndian width n) = n % 256 ^ width := by
  simpa [ofBigEndian] using foldl_bigEndian width n 0

private theorem foldl_lt (bs : List UInt8) (acc : Nat) :
    bs.foldl (fun acc b => acc * 256 + b.toNat) acc < (acc + 1) * 256 ^ bs.length := by
  induction bs generalizing acc with
  | nil => simp
  | cons b bs ih =>
    have hb := b.toNat_lt
    calc (b :: bs).foldl (fun acc b => acc * 256 + b.toNat) acc
        < (acc * 256 + b.toNat + 1) * 256 ^ bs.length := by simpa using ih _
      _ ≤ ((acc + 1) * 256) * 256 ^ bs.length := Nat.mul_le_mul_right _ (by omega)
      _ = (acc + 1) * 256 ^ (b :: bs).length := by rw [List.length_cons, pow_succ]; ring

theorem ofBigEndian_lt (bs : List UInt8) : ofBigEndian bs < 256 ^ bs.length := by
  simpa [ofBigEndian] using foldl_lt bs 0

/-- A signed number that fits `width` bytes is read back from them. -/
theorem toSigned_ofSigned {width : Nat} {z : Int} (hlo : -256 ^ width ≤ 2 * z)
    (hhi : 2 * z < 256 ^ width) : toSigned width (ofSigned width z) = z := by
  have hpos : (0 : Int) < 256 ^ width := by positivity
  have hmod : ((ofSigned width z : Nat) : Int) = z % 256 ^ width :=
    Int.toNat_of_nonneg (Int.emod_nonneg _ hpos.ne')
  rcases lt_or_ge z 0 with hz | hz
  · -- a negative number is stored with `256 ^ width` added to it
    have hval : z % 256 ^ width = z + 256 ^ width := by
      rw [← Int.add_emod_right, Int.emod_eq_of_lt (by omega) (by omega)]
    have hnot : ¬ 2 * ofSigned width z < 256 ^ width := by
      zify
      rw [hmod, hval]
      omega
    rw [toSigned, if_neg hnot, hmod, hval]
    omega
  · have hval : z % 256 ^ width = z := Int.emod_eq_of_lt hz (by omega)
    have hlt : 2 * ofSigned width z < 256 ^ width := by
      zify
      rwa [hmod, hval]
    rw [toSigned, if_pos hlt, hmod, hval]

end CLib
