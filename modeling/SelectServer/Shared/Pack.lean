import SelectServer.CLib.BigEndian

/-!
# `shared/pack.c`

`pack` and `unpack` walk a format string and store or fetch one value for each of its
letters, in network byte order. The letters for floating point numbers (`f`, `d`, `g`) are
not modelled: a format with one of them has no result here.
-/

namespace SelectServer

open CLib

/-- An argument of `pack`, or a value stored by `unpack`. -/
inductive PackArg
  | int (v : Int)
  | str (s : List UInt8)
  deriving DecidableEq, Repr

/-! ## Words -/

/-- `packi16`. -/
def packi16 (i : Nat) : List UInt8 := [UInt8.ofNat (i >>> 8), UInt8.ofNat i]

/-- `packi32`. -/
def packi32 (i : Nat) : List UInt8 :=
  [UInt8.ofNat (i >>> 24), UInt8.ofNat (i >>> 16), UInt8.ofNat (i >>> 8), UInt8.ofNat i]

/-- `packi64`. -/
def packi64 (i : Nat) : List UInt8 :=
  [UInt8.ofNat (i >>> 56), UInt8.ofNat (i >>> 48), UInt8.ofNat (i >>> 40), UInt8.ofNat (i >>> 32),
    UInt8.ofNat (i >>> 24), UInt8.ofNat (i >>> 16), UInt8.ofNat (i >>> 8), UInt8.ofNat i]

/-- `unpacku16`; `none` when the buffer is too short. -/
def unpacku16 : List UInt8 → Option Nat
  | b0 :: b1 :: _ => some (b0.toNat <<< 8 ||| b1.toNat)
  | _ => none

/-- `unpacku32`. -/
def unpacku32 : List UInt8 → Option Nat
  | b0 :: b1 :: b2 :: b3 :: _ =>
    some (b0.toNat <<< 24 ||| b1.toNat <<< 16 ||| b2.toNat <<< 8 ||| b3.toNat)
  | _ => none

/-- `unpacku64`. -/
def unpacku64 : List UInt8 → Option Nat
  | b0 :: b1 :: b2 :: b3 :: b4 :: b5 :: b6 :: b7 :: _ =>
    some (b0.toNat <<< 56 ||| b1.toNat <<< 48 ||| b2.toNat <<< 40 ||| b3.toNat <<< 32 |||
      b4.toNat <<< 24 ||| b5.toNat <<< 16 ||| b6.toNat <<< 8 ||| b7.toNat)
  | _ => none

/-- The step "change unsigned numbers to signed", with the largest positive and the largest
unsigned number of the width. -/
def resign (maxSigned maxUnsigned i2 : Nat) : Int :=
  if i2 ≤ maxSigned then i2 else -1 - ((maxUnsigned - i2 : Nat) : Int)

/-- `unpacki16`. -/
def unpacki16 (buf : List UInt8) : Option Int := (unpacku16 buf).map (resign 0x7fff 0xffff)

/-- `unpacki32`. -/
def unpacki32 (buf : List UInt8) : Option Int := (unpacku32 buf).map (resign 0x7fffffff 0xffffffff)

/-- `unpacki64`. -/
def unpacki64 (buf : List UInt8) : Option Int :=
  (unpacku64 buf).map (resign 0x7fffffffffffffff 0xffffffffffffffff)

/-! ## Formats -/

/-- `pack`: the bytes stored; the result of the function is their number. -/
def pack : List Char → List PackArg → Option (List UInt8)
  | [], _ => some []
  | 'c' :: format, .int v :: args => (pack format args).map (UInt8.ofNat (ofSigned 1 v) :: ·)
  | 'C' :: format, .int v :: args => (pack format args).map (UInt8.ofNat (ofSigned 1 v) :: ·)
  | 'h' :: format, .int v :: args => (pack format args).map (packi16 (ofSigned 4 v) ++ ·)
  | 'H' :: format, .int v :: args => (pack format args).map (packi16 (ofSigned 4 v) ++ ·)
  | 'l' :: format, .int v :: args => (pack format args).map (packi32 (ofSigned 8 v) ++ ·)
  | 'L' :: format, .int v :: args => (pack format args).map (packi32 (ofSigned 8 v) ++ ·)
  | 'q' :: format, .int v :: args => (pack format args).map (packi64 (ofSigned 8 v) ++ ·)
  | 'Q' :: format, .int v :: args => (pack format args).map (packi64 (ofSigned 8 v) ++ ·)
  -- the length is stored in 16 bits, however long the string is
  | 's' :: format, .str s :: args =>
    (pack format args).map ((packi16 s.length ++ s) ++ ·)
  | c :: format, args => if c ∈ "cChHlLqQfdgs".toList then none else pack format args

/-- `unpack`; `maxstrlen` is the number read so far in front of an `s`. -/
def unpackFrom : Nat → List Char → List UInt8 → Option (List PackArg)
  | _, [], _ => some []
  | _, 'c' :: format, b :: buf =>
    (unpackFrom 0 format buf).map (.int (resign 0x7f 0xff b.toNat) :: ·)
  | _, 'C' :: format, b :: buf => (unpackFrom 0 format buf).map (.int b.toNat :: ·)
  | _, 'h' :: format, buf =>
    (unpacki16 buf).bind fun v => (unpackFrom 0 format (buf.drop 2)).map (.int v :: ·)
  | _, 'H' :: format, buf =>
    (unpacku16 buf).bind fun v => (unpackFrom 0 format (buf.drop 2)).map (.int v :: ·)
  | _, 'l' :: format, buf =>
    (unpacki32 buf).bind fun v => (unpackFrom 0 format (buf.drop 4)).map (.int v :: ·)
  | _, 'L' :: format, buf =>
    (unpacku32 buf).bind fun v => (unpackFrom 0 format (buf.drop 4)).map (.int v :: ·)
  | _, 'q' :: format, buf =>
    (unpacki64 buf).bind fun v => (unpackFrom 0 format (buf.drop 8)).map (.int v :: ·)
  | _, 'Q' :: format, buf =>
    (unpacku64 buf).bind fun v => (unpackFrom 0 format (buf.drop 8)).map (.int v :: ·)
  | maxstrlen, 's' :: format, buf =>
    (unpacku16 buf).bind fun len =>
      let count := if 0 < maxstrlen ∧ maxstrlen < len then maxstrlen - 1 else len
      if len + 2 ≤ buf.length then
        (unpackFrom 0 format (buf.drop (len + 2))).map (.str ((buf.drop 2).take count) :: ·)
      else none
  | maxstrlen, c :: format, buf =>
    if c ∈ "cCfdg".toList then none
    else unpackFrom (if c.isDigit then maxstrlen * 10 + (c.toNat - 48) else 0) format buf

/-- `unpack`. -/
def unpack (format : List Char) (buf : List UInt8) : Option (List PackArg) :=
  unpackFrom 0 format buf

/-! ## The format of a length -/

theorem packi32_eq (i : Nat) : packi32 i = bigEndian 4 i := rfl

private theorem or_shift {a b k : Nat} (h : b < 2 ^ k) : a <<< k ||| b = a * 2 ^ k + b := by
  rw [← Nat.shiftLeft_add_eq_or_of_lt h, Nat.shiftLeft_eq]

theorem unpacku32_eq {buf : List UInt8} (h : 4 ≤ buf.length) :
    unpacku32 buf = some (ofBigEndian (buf.take 4)) := by
  match buf, h with
  | b0 :: b1 :: b2 :: b3 :: _, _ =>
    have h1 := b1.toNat_lt
    have h2 := b2.toNat_lt
    have h3 := b3.toNat_lt
    have hbits : b0.toNat <<< 24 ||| b1.toNat <<< 16 ||| b2.toNat <<< 8 ||| b3.toNat =
        ((b0.toNat * 256 + b1.toNat) * 256 + b2.toNat) * 256 + b3.toNat := by
      have hlow : b2.toNat <<< 8 ||| b3.toNat = b2.toNat * 2 ^ 8 + b3.toNat := or_shift (by omega)
      have hmid : b1.toNat <<< 16 ||| (b2.toNat * 2 ^ 8 + b3.toNat) =
          b1.toNat * 2 ^ 16 + (b2.toNat * 2 ^ 8 + b3.toNat) := or_shift (by omega)
      rw [Nat.or_assoc, Nat.or_assoc, hlow, hmid, or_shift (by omega)]
      ring
    simp [unpacku32, hbits, ofBigEndian]

theorem resign_eq {i2 : Nat} (h : i2 < 256 ^ 4) :
    resign 0x7fffffff 0xffffffff i2 = toSigned 4 i2 := by
  unfold resign toSigned
  norm_num at *
  split <;> split <;> omega

/-- `pack(buf, "l", v)` stores four bytes. -/
theorem pack_l (v : Int) : pack ['l'] [.int v] = some (bigEndian 4 (ofSigned 8 v)) := by
  simp [pack, packi32_eq]

/-- `unpack(buf, "l", &v)` reads four bytes as a signed number. -/
theorem unpack_l {buf : List UInt8} (h : 4 ≤ buf.length) :
    unpack ['l'] buf = some [.int (toSigned 4 (ofBigEndian (buf.take 4)))] := by
  have hlt : ofBigEndian (buf.take 4) < 256 ^ 4 := by
    have := ofBigEndian_lt (buf.take 4)
    rwa [List.length_take, Nat.min_eq_left h] at this
  simp [unpack, unpackFrom, unpacki32, unpacku32_eq h, resign_eq hlt]

end SelectServer
