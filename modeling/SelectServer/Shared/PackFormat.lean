import SelectServer.Shared.Floats
import SelectServer.Shared.Pack

/-!
# Whole formats of `pack` and `unpack`

All letters of a format, those for floating point numbers and the lengths in front of an `s`
included. What was packed comes back from `unpack` with the same format if and only if every
argument fits its letter (`unpackValues_packValues_iff`); the bytes that an `s` stores stay in
the room that its length announces if and only if the packed string has not just that length
(`stringStores_fit_iff`).
-/

namespace SelectServer

open CLib

/-- An argument of `pack`, or a value stored by `unpack`. -/
inductive FormatValue
  | int (v : Int)
  | real (x : ℚ)
  | str (text : List UInt8)
  deriving DecidableEq

/-- The letters that the two functions have a case for. -/
inductive FormatLetter
  | c | C | h | H | l | L | q | Q | f | d | g | s
  deriving DecidableEq, Repr

/-- The labels of the cases. -/
def FormatLetter.ofChar : Char → Option FormatLetter
  | 'c' => some .c
  | 'C' => some .C
  | 'h' => some .h
  | 'H' => some .H
  | 'l' => some .l
  | 'L' => some .L
  | 'q' => some .q
  | 'Q' => some .Q
  | 'f' => some .f
  | 'd' => some .d
  | 'g' => some .g
  | 's' => some .s
  | _ => none

/-- The case of a letter in `pack`: the bytes that are stored. The `double` of an `f` is made a
`float` first; for an infinity `pack754` does not return. -/
def FormatLetter.put : FormatLetter → FormatValue → Option (List UInt8)
  | .c, .int v => some [UInt8.ofNat (ofSigned 1 v)]
  | .C, .int v => some [UInt8.ofNat (ofSigned 1 v)]
  | .h, .int v => some (packi16 (ofSigned 4 v))
  | .H, .int v => some (packi16 (ofSigned 4 v))
  | .l, .int v => some (packi32 (ofSigned 8 v))
  | .L, .int v => some (packi32 (ofSigned 8 v))
  | .q, .int v => some (packi64 (ofSigned 8 v))
  | .Q, .int v => some (packi64 (ofSigned 8 v))
  | .f, .real x => (float.convert x).map fun f => packi16 (pack754 f 16 5)
  | .d, .real x => some (packi32 (pack754 x 32 8))
  | .g, .real x => some (packi64 (pack754 x 64 11))
  | .s, .str text => some (packi16 text.length ++ text)
  | _, _ => none

/-- The bytes of a string that `unpack` stores in front of its terminator. -/
def storedLength (maxstrlen len : Nat) : Nat :=
  if 0 < maxstrlen ∧ maxstrlen < len then maxstrlen - 1 else len

/-- The case of a letter in `unpack`: the value that is stored, and the rest of the buffer. -/
def FormatLetter.get (maxstrlen : Nat) :
    FormatLetter → List UInt8 → Option (FormatValue × List UInt8)
  | .c, [] => none
  | .c, b :: buf => some (.int (resign 0x7f 0xff b.toNat), buf)
  | .C, [] => none
  | .C, b :: buf => some (.int b.toNat, buf)
  | .h, buf => (unpacki16 buf).map fun v => (.int v, buf.drop 2)
  | .H, buf => (unpacku16 buf).map fun v => (.int v, buf.drop 2)
  | .l, buf => (unpacki32 buf).map fun v => (.int v, buf.drop 4)
  | .L, buf => (unpacku32 buf).map fun v => (.int v, buf.drop 4)
  | .q, buf => (unpacki64 buf).map fun v => (.int v, buf.drop 8)
  | .Q, buf => (unpacku64 buf).map fun v => (.int v, buf.drop 8)
  | .f, buf => (unpacku16 buf).map fun i => (.real (unpack754 i 16 5), buf.drop 2)
  | .d, buf => (unpacku32 buf).map fun i => (.real (unpack754 i 32 8), buf.drop 4)
  | .g, buf => (unpacku64 buf).map fun i => (.real (unpack754 i 64 11), buf.drop 8)
  | .s, buf => (unpacku16 buf).bind fun len =>
    if len + 2 ≤ buf.length then
      some (.str ((buf.drop 2).take (storedLength maxstrlen len)), buf.drop (len + 2))
    else none

/-- `pack`, of all letters. -/
def packValues : List Char → List FormatValue → Option (List UInt8)
  | [], _ => some []
  | ch :: format, args =>
    match FormatLetter.ofChar ch, args with
    | none, args => packValues format args
    | some _, [] => none
    | some letter, v :: args =>
      (letter.put v).bind fun bytes => (packValues format args).map (bytes ++ ·)

/-- `maxstrlen` behind a character without a case; it is an `unsigned int`. -/
def nextMaxstrlen (maxstrlen : Nat) (ch : Char) : Nat :=
  if ch.isDigit then (maxstrlen * 10 + (ch.toNat - 48)) % 2 ^ 32 else 0

/-- `unpack`, of all letters. -/
def unpackValues : Nat → List Char → List UInt8 → Option (List FormatValue)
  | _, [], _ => some []
  | maxstrlen, ch :: format, buf =>
    match FormatLetter.ofChar ch with
    | none => unpackValues (nextMaxstrlen maxstrlen ch) format buf
    | some letter =>
      (letter.get maxstrlen buf).bind fun r => (unpackValues 0 format r.2).map (r.1 :: ·)

/-! ## Words -/

section Words

theorem shiftLeft_or_shiftLeft (x b k : Nat) :
    x <<< (k + 8) ||| b <<< k = (x <<< 8 ||| b) <<< k := by
  rw [Nat.shiftLeft_or_distrib, ← Nat.shiftLeft_add, Nat.add_comm]

theorem shiftLeft_or_byte (x : Nat) (b : UInt8) : x <<< 8 ||| b.toNat = x * 256 + b.toNat := by
  rw [← Nat.shiftLeft_add_eq_or_of_lt b.toNat_lt, Nat.shiftLeft_eq]

theorem unpacku16_eq {buf : List UInt8} (h : 2 ≤ buf.length) :
    unpacku16 buf = some (ofBigEndian (buf.take 2)) := by
  match buf, h with
  | b0 :: b1 :: _, _ => simp [unpacku16, shiftLeft_or_byte, ofBigEndian]

theorem unpacku64_eq {buf : List UInt8} (h : 8 ≤ buf.length) :
    unpacku64 buf = some (ofBigEndian (buf.take 8)) := by
  match buf, h with
  | b0 :: b1 :: b2 :: b3 :: b4 :: b5 :: b6 :: b7 :: _, _ =>
    rw [unpacku64, shiftLeft_or_shiftLeft _ _ 48, shiftLeft_or_shiftLeft _ _ 40,
      shiftLeft_or_shiftLeft _ _ 32, shiftLeft_or_shiftLeft _ _ 24, shiftLeft_or_shiftLeft _ _ 16,
      shiftLeft_or_shiftLeft _ _ 8]
    simp [shiftLeft_or_byte, ofBigEndian]

theorem unpacku16_packi16 (n : Nat) (rest : List UInt8) :
    unpacku16 (packi16 n ++ rest) = some (n % 256 ^ 2) := by
  rw [unpacku16_eq (by simp [packi16])]
  exact congrArg some (ofBigEndian_bigEndian 2 n)

theorem unpacku32_packi32 (n : Nat) (rest : List UInt8) :
    unpacku32 (packi32 n ++ rest) = some (n % 256 ^ 4) := by
  rw [unpacku32_eq (by simp [packi32])]
  exact congrArg some (ofBigEndian_bigEndian 4 n)

theorem unpacku64_packi64 (n : Nat) (rest : List UInt8) :
    unpacku64 (packi64 n ++ rest) = some (n % 256 ^ 8) := by
  rw [unpacku64_eq (by simp [packi64])]
  exact congrArg some (ofBigEndian_bigEndian 8 n)

variable {width : Nat} {v : Int}

theorem resign_width {maxSigned maxUnsigned n : Nat} (hsigned : 2 * (maxSigned + 1) = 256 ^ width)
    (hunsigned : maxUnsigned + 1 = 256 ^ width) (h : n < 256 ^ width) :
    resign maxSigned maxUnsigned n = toSigned width n := by
  have hcast : (256 : Int) ^ width = 2 * (maxSigned + 1) := by exact_mod_cast hsigned.symm
  rw [← hsigned] at h hunsigned
  rw [resign, toSigned, ← hsigned, hcast]
  split <;> split <;> omega

theorem ofSigned_mod {wider : Nat} (h : width ≤ wider) (v : Int) :
    ofSigned wider v % 256 ^ width = ofSigned width v := by
  have hdvd : (256 : Int) ^ width ∣ 256 ^ wider := pow_dvd_pow 256 h
  have hnonneg : 0 ≤ v % 256 ^ wider := Int.emod_nonneg _ (by positivity)
  apply Int.natCast_inj.mp
  rw [ofSigned, ofSigned, Int.toNat_of_nonneg (Int.emod_nonneg _ (by positivity))]
  push_cast
  rw [Int.toNat_of_nonneg hnonneg, Int.emod_emod_of_dvd _ hdvd]

theorem ofSigned_lt (width : Nat) (v : Int) : ofSigned width v < 256 ^ width := by
  rw [← ofSigned_mod le_rfl v]
  exact Nat.mod_lt _ (by positivity)

theorem toNat_ofSigned_one (v : Int) : (UInt8.ofNat (ofSigned 1 v)).toNat = ofSigned 1 v := by
  rw [UInt8.toNat_ofNat']
  exact Nat.mod_eq_of_lt (ofSigned_lt 1 v)

theorem unpacki16_packi16 (n : Nat) (rest : List UInt8) :
    unpacki16 (packi16 n ++ rest) = some (toSigned 2 (n % 256 ^ 2)) := by
  rw [unpacki16, unpacku16_packi16, Option.map_some,
    resign_width (by norm_num) (by norm_num) (Nat.mod_lt _ (by positivity))]

theorem unpacki32_packi32 (n : Nat) (rest : List UInt8) :
    unpacki32 (packi32 n ++ rest) = some (toSigned 4 (n % 256 ^ 4)) := by
  rw [unpacki32, unpacku32_packi32, Option.map_some,
    resign_width (by norm_num) (by norm_num) (Nat.mod_lt _ (by positivity))]

theorem unpacki64_packi64 (n : Nat) (rest : List UInt8) :
    unpacki64 (packi64 n ++ rest) = some (toSigned 8 (n % 256 ^ 8)) := by
  rw [unpacki64, unpacku64_packi64, Option.map_some,
    resign_width (by norm_num) (by norm_num) (Nat.mod_lt _ (by positivity))]

/-- A signed number of `width` bytes. -/
def FitsSigned (width : Nat) (v : Int) : Prop := -256 ^ width ≤ 2 * v ∧ 2 * v < 256 ^ width

/-- An unsigned number of `width` bytes. -/
def FitsUnsigned (width : Nat) (v : Int) : Prop := 0 ≤ v ∧ v < 256 ^ width

theorem toSigned_ofSigned_iff : toSigned width (ofSigned width v) = v ↔ FitsSigned width v := by
  constructor
  · intro h
    have hlt : ((ofSigned width v : Nat) : Int) < 256 ^ width := by
      exact_mod_cast ofSigned_lt width v
    rw [toSigned] at h
    split at h
    case isTrue hsmall =>
      have hsmall' : 2 * ((ofSigned width v : Nat) : Int) < 256 ^ width := by
        exact_mod_cast hsmall
      constructor <;> omega
    case isFalse hlarge =>
      have hlarge' : 256 ^ width ≤ 2 * ((ofSigned width v : Nat) : Int) := by
        exact_mod_cast not_lt.mp hlarge
      constructor <;> omega
  · exact fun h => toSigned_ofSigned h.1 h.2

theorem ofSigned_eq_iff : (ofSigned width v : Int) = v ↔ FitsUnsigned width v := by
  have hpos : (0 : Int) < 256 ^ width := by positivity
  rw [ofSigned, Int.toNat_of_nonneg (Int.emod_nonneg _ hpos.ne')]
  constructor
  · intro h
    rw [FitsUnsigned, ← h]
    exact ⟨Int.emod_nonneg _ hpos.ne', Int.emod_lt_of_pos _ hpos⟩
  · exact fun h => Int.emod_eq_of_lt h.1 h.2

end Words

/-! ## Letters -/

/-- The arguments that a letter can hold, with the room that is announced for a string. -/
def FormatLetter.Fits (maxstrlen : Nat) : FormatLetter → FormatValue → Prop
  | .c, .int v => FitsSigned 1 v
  | .C, .int v => FitsUnsigned 1 v
  | .h, .int v => FitsSigned 2 v
  | .H, .int v => FitsUnsigned 2 v
  | .l, .int v => FitsSigned 4 v
  | .L, .int v => FitsUnsigned 4 v
  | .q, .int v => FitsSigned 8 v
  | .Q, .int v => FitsUnsigned 8 v
  | .f, .real x => ∃ i < 2 ^ 16, unpack754 i 16 5 = x
  | .d, .real x => ∃ i < 2 ^ 32, unpack754 i 32 8 = x
  | .g, .real x => ∃ i < 2 ^ 64, unpack754 i 64 11 = x
  | .s, .str text => text.length < 2 ^ 16 ∧ (0 < maxstrlen → text.length ≤ maxstrlen)
  | _, _ => False

/-- A string whose length fits the 16 bits in front of it. -/
def FormatValue.Short : FormatValue → Prop
  | .str text => text.length < 2 ^ 16
  | _ => True

theorem FormatLetter.Fits.short {maxstrlen : Nat} {letter : FormatLetter} {v : FormatValue}
    (h : letter.Fits maxstrlen v) : v.Short := by
  cases v with
  | str text =>
    cases letter with
    | s => exact h.1
    | _ => exact h.elim
  | _ => trivial

/-- What `unpack` stores for the bytes of one letter, which are followed by more: the argument
if and only if it fits. It goes on behind these bytes unless a string was too long. -/
structure ReadsBack (read : Option (FormatValue × List UInt8)) (v : FormatValue)
    (rest : List UInt8) (fits : Prop) : Prop where
  stored : ∃ w rest', read = some (w, rest') ∧ (w = v ↔ fits) ∧ (v.Short → rest' = rest)

theorem ReadsBack.of_eq {v w : FormatValue} {rest : List UInt8} {fits : Prop} (h : w = v ↔ fits) :
    ReadsBack (some (w, rest)) v rest fits :=
  ⟨w, rest, rfl, h, fun _ => rfl⟩

section Letters

variable {v : Int} {x : ℚ} {rest : List UInt8} {bits expbits : Nat}

theorem readsBack_signed {width : Nat} :
    ReadsBack (some (.int (toSigned width (ofSigned width v)), rest)) (.int v) rest
      (FitsSigned width v) :=
  .of_eq (by rw [FormatValue.int.injEq, toSigned_ofSigned_iff])

theorem readsBack_unsigned {width : Nat} :
    ReadsBack (some (.int (ofSigned width v), rest)) (.int v) rest (FitsUnsigned width v) :=
  .of_eq (by rw [FormatValue.int.injEq, ofSigned_eq_iff])

/-- A number that has been converted comes back as the argument if a word stands for it, which
the conversion then leaves as it is. -/
theorem readsBack_real {f : ℚ} (hwidths : FloatWidths bits expbits)
    (hconvert : ∀ i < 2 ^ bits, unpack754 i bits expbits = x → f = x) :
    ReadsBack (some (.real (unpack754 (pack754 f bits expbits % 2 ^ bits) bits expbits), rest))
      (.real x) rest (∃ i < 2 ^ bits, unpack754 i bits expbits = x) := by
  refine .of_eq ?_
  rw [FormatValue.real.injEq]
  constructor
  · exact fun h => ⟨_, Nat.mod_lt _ (by positivity), h⟩
  · rintro ⟨i, hi, hx⟩
    obtain rfl := hconvert i hi hx
    rw [← hx, pack754_unpack754 hwidths hi, Nat.mod_eq_of_lt hi]

theorem storedLength_le (maxstrlen len : Nat) : storedLength maxstrlen len ≤ len := by
  unfold storedLength
  split <;> omega

theorem storedLength_eq_iff (maxstrlen len : Nat) :
    storedLength maxstrlen len = len ↔ (0 < maxstrlen → len ≤ maxstrlen) := by
  unfold storedLength
  split <;> omega

/-- The length of a string is taken modulo `2 ^ 16`. -/
theorem get_str (maxstrlen : Nat) (text rest : List UInt8) :
    FormatLetter.s.get maxstrlen (packi16 text.length ++ text ++ rest) =
      some (.str (text.take (storedLength maxstrlen (text.length % 2 ^ 16))),
        (text ++ rest).drop (text.length % 2 ^ 16)) := by
  have hlen : text.length % 2 ^ 16 ≤ text.length := Nat.mod_le _ _
  have hbytes : (packi16 text.length).length = 2 := rfl
  rw [FormatLetter.get, List.append_assoc, unpacku16_packi16, Option.bind_some,
    show (256 : Nat) ^ 2 = 2 ^ 16 by norm_num, if_pos (by simp [hbytes]; omega),
    List.drop_append_of_le_length hbytes.ge, List.drop_of_length_le hbytes.le, List.nil_append,
    List.take_append_of_le_length ((storedLength_le _ _).trans hlen), Nat.add_comm,
    ← hbytes, List.drop_append]
  simp

theorem readsBack_str (maxstrlen : Nat) (text : List UInt8) :
    ReadsBack (FormatLetter.s.get maxstrlen (packi16 text.length ++ text ++ rest)) (.str text) rest
      (text.length < 2 ^ 16 ∧ (0 < maxstrlen → text.length ≤ maxstrlen)) := by
  refine ⟨⟨_, _, get_str maxstrlen text rest, ?_, ?_⟩⟩
  · rw [FormatValue.str.injEq, List.take_eq_self_iff]
    constructor
    · intro h
      have hle := storedLength_le maxstrlen (text.length % 2 ^ 16)
      have hlt : text.length < 2 ^ 16 := by
        by_contra hlarge
        have := Nat.mod_lt text.length (show 0 < 2 ^ 16 by norm_num)
        omega
      rw [Nat.mod_eq_of_lt hlt] at h hle
      exact ⟨hlt, (storedLength_eq_iff ..).mp (le_antisymm hle h)⟩
    · rintro ⟨hlt, hroom⟩
      rw [Nat.mod_eq_of_lt hlt, (storedLength_eq_iff ..).mpr hroom]
  · intro hlt
    rw [FormatValue.Short] at hlt
    rw [Nat.mod_eq_of_lt hlt, List.drop_left]

/-- What `pack` stores for a letter comes back if and only if the argument fits. -/
theorem FormatLetter.readsBack (maxstrlen : Nat) (rest : List UInt8) :
    ∀ {letter : FormatLetter} {v : FormatValue} {bytes : List UInt8}, letter.put v = some bytes →
      ReadsBack (letter.get maxstrlen (bytes ++ rest)) v rest (letter.Fits maxstrlen v)
  | .c, .int v, _, rfl => by
    rw [List.cons_append, get, toNat_ofSigned_one,
      resign_width (by norm_num) (by norm_num) (ofSigned_lt 1 v)]
    exact readsBack_signed
  | .C, .int v, _, rfl => by
    rw [List.cons_append, get, toNat_ofSigned_one]
    exact readsBack_unsigned
  | .h, .int v, _, rfl => by
    rw [get, unpacki16_packi16, ofSigned_mod (by norm_num)]
    exact readsBack_signed
  | .H, .int v, _, rfl => by
    rw [get, unpacku16_packi16, ofSigned_mod (by norm_num)]
    exact readsBack_unsigned
  | .l, .int v, _, rfl => by
    rw [get, unpacki32_packi32, ofSigned_mod (by norm_num)]
    exact readsBack_signed
  | .L, .int v, _, rfl => by
    rw [get, unpacku32_packi32, ofSigned_mod (by norm_num)]
    exact readsBack_unsigned
  | .q, .int v, _, rfl => by
    rw [get, unpacki64_packi64, ofSigned_mod le_rfl]
    exact readsBack_signed
  | .Q, .int v, _, rfl => by
    rw [get, unpacku64_packi64, ofSigned_mod le_rfl]
    exact readsBack_unsigned
  | .f, .real x, _, hput => by
    obtain ⟨f, hf, rfl⟩ := Option.map_eq_some_iff.mp hput
    rw [get, unpacku16_packi16]
    refine readsBack_real ⟨by norm_num, by norm_num, by norm_num, by norm_num⟩ ?_
    rintro i hi rfl
    exact Option.some.inj (hf.symm.trans (convert_unpack754 hi))
  | .d, .real x, _, rfl => by
    rw [get, unpacku32_packi32]
    exact readsBack_real ⟨by norm_num, by norm_num, by norm_num, by norm_num⟩ fun _ _ _ => rfl
  | .g, .real x, _, rfl => by
    rw [get, unpacku64_packi64]
    exact readsBack_real ⟨by norm_num, by norm_num, by norm_num, by norm_num⟩ fun _ _ _ => rfl
  | .s, .str text, _, rfl => readsBack_str maxstrlen text

end Letters

/-! ## Formats -/

/-- Every argument fits its letter. -/
def FormatFits : Nat → List Char → List FormatValue → Prop
  | _, [], args => args = []
  | maxstrlen, ch :: format, args =>
    match FormatLetter.ofChar ch, args with
    | none, args => FormatFits (nextMaxstrlen maxstrlen ch) format args
    | some _, [] => False
    | some letter, v :: args => letter.Fits maxstrlen v ∧ FormatFits 0 format args

section Formats

variable {format : List Char} {args : List FormatValue} {bytes : List UInt8}

/-- One letter of `pack`. -/
theorem packValues_cons_eq_some {ch : Char} {letter : FormatLetter}
    (hletter : FormatLetter.ofChar ch = some letter) :
    packValues (ch :: format) args = some bytes ↔
      ∃ v args' stored bytes', args = v :: args' ∧ letter.put v = some stored ∧
        packValues format args' = some bytes' ∧ bytes = stored ++ bytes' := by
  cases args with
  | nil => simp [packValues, hletter]
  | cons v args =>
    simp only [packValues, hletter, Option.bind_eq_some_iff, Option.map_eq_some_iff,
      List.cons.injEq]
    grind

/-- What was packed comes back if and only if every argument fits its letter. -/
theorem unpackValues_packValues_iff (maxstrlen : Nat)
    (hpack : packValues format args = some bytes) (rest : List UInt8) :
    unpackValues maxstrlen format (bytes ++ rest) = some args ↔
      FormatFits maxstrlen format args := by
  induction format generalizing maxstrlen args bytes with
  | nil =>
    rw [unpackValues, FormatFits, Option.some.injEq, eq_comm]
  | cons ch format ih =>
    cases hletter : FormatLetter.ofChar ch with
    | none =>
      simp only [packValues, hletter] at hpack
      simp only [unpackValues, FormatFits, hletter]
      exact ih _ hpack
    | some letter =>
      obtain ⟨v, args', stored, bytes', rfl, hput, hpack', rfl⟩ :=
        (packValues_cons_eq_some hletter).mp hpack
      obtain ⟨w, rest', hread, hw, hrest⟩ :=
        (letter.readsBack maxstrlen (bytes' ++ rest) hput).stored
      rw [List.append_assoc]
      simp only [unpackValues, FormatFits, hletter, hread, Option.bind_some,
        Option.map_eq_some_iff, List.cons.injEq]
      by_cases hfits : letter.Fits maxstrlen v
      · rw [hrest hfits.short, ← ih 0 hpack']
        simp [hfits, hw.mpr hfits]
      · simp [hfits, mt hw.mp hfits]

/-! ## The room of a string -/

/-- A string that `unpack` stores: the room that the format announces (0 for none), the length
in the buffer, and the bytes that are stored, with the terminator. -/
structure StringStore where
  room : Nat
  len : Nat
  stored : Nat
  deriving DecidableEq, Repr

/-- The strings that a letter stores. -/
def FormatLetter.stores (maxstrlen : Nat) : FormatLetter → List UInt8 → List StringStore
  | .s, buf =>
    match unpacku16 buf with
    | none => []
    | some len => [⟨maxstrlen, len, storedLength maxstrlen len + 1⟩]
  | _, _ => []

/-- The strings that `unpack` stores. -/
def unpackStores : Nat → List Char → List UInt8 → List StringStore
  | _, [], _ => []
  | maxstrlen, ch :: format, buf =>
    match FormatLetter.ofChar ch with
    | none => unpackStores (nextMaxstrlen maxstrlen ch) format buf
    | some letter =>
      match letter.get maxstrlen buf with
      | none => []
      | some (_, buf') => letter.stores maxstrlen buf ++ unpackStores 0 format buf'

/-- The strings that are packed, with the room that the format announces for each. -/
def stringRooms : Nat → List Char → List FormatValue → List (Nat × List UInt8)
  | _, [], _ => []
  | maxstrlen, ch :: format, args =>
    match FormatLetter.ofChar ch, args with
    | none, args => stringRooms (nextMaxstrlen maxstrlen ch) format args
    | some _, [] => []
    | some .s, .str text :: args => (maxstrlen, text) :: stringRooms 0 format args
    | some _, _ :: args => stringRooms 0 format args

/-- The bytes of a string and its terminator stay in the room that is announced. -/
def StringStore.Within (store : StringStore) : Prop := 0 < store.room → store.stored ≤ store.room

theorem storedLength_within_iff {maxstrlen : Nat} (hpos : 0 < maxstrlen) (len : Nat) :
    storedLength maxstrlen len + 1 ≤ maxstrlen ↔ len ≠ maxstrlen := by
  unfold storedLength
  split <;> omega

/-- `unpack` stores the strings that were packed. -/
theorem unpackStores_packValues (maxstrlen : Nat) (hshort : ∀ v ∈ args, v.Short)
    (hpack : packValues format args = some bytes) (rest : List UInt8) :
    unpackStores maxstrlen format (bytes ++ rest) =
      (stringRooms maxstrlen format args).map fun p =>
        ⟨p.1, p.2.length, storedLength p.1 p.2.length + 1⟩ := by
  induction format generalizing maxstrlen args bytes with
  | nil => rfl
  | cons ch format ih =>
    cases hletter : FormatLetter.ofChar ch with
    | none =>
      simp only [packValues, hletter] at hpack
      simp only [unpackStores, stringRooms, hletter]
      exact ih _ hshort hpack
    | some letter =>
      obtain ⟨v, args', stored, bytes', rfl, hput, hpack', rfl⟩ :=
        (packValues_cons_eq_some hletter).mp hpack
      obtain ⟨hv, hargs⟩ := List.forall_mem_cons.mp hshort
      obtain ⟨w, rest', hread, -, hrest⟩ :=
        (letter.readsBack maxstrlen (bytes' ++ rest) hput).stored
      obtain rfl := hrest hv
      have htail := ih 0 hargs hpack'
      rw [List.append_assoc]
      simp only [unpackStores, hletter, hread, htail]
      cases letter with
      | s =>
        cases v with
        | str text =>
          obtain rfl := Option.some.inj hput
          rw [FormatValue.Short] at hv
          simp only [FormatLetter.stores, stringRooms, hletter, List.append_assoc,
            unpacku16_packi16, List.map_cons, List.singleton_append]
          rw [Nat.mod_eq_of_lt (by omega)]
        | _ => cases hput
      | _ => simp [FormatLetter.stores, stringRooms, hletter]

/-- Every string stays in its room if and only if none has just the length that is announced:
for such a string the terminator goes behind the room. -/
theorem stringStores_fit_iff (hshort : ∀ v ∈ args, v.Short)
    (hpack : packValues format args = some bytes) (rest : List UInt8) :
    (∀ store ∈ unpackStores 0 format (bytes ++ rest), store.Within) ↔
      ∀ p ∈ stringRooms 0 format args, 0 < p.1 → p.2.length ≠ p.1 := by
  rw [unpackStores_packValues 0 hshort hpack rest, List.forall_mem_map]
  apply forall₂_congr
  intro p _
  constructor
  · exact fun h hpos => (storedLength_within_iff hpos _).mp (h hpos)
  · exact fun h hpos => (storedLength_within_iff hpos _).mpr (h hpos)

end Formats

/-- A byte, a string of two characters with room for four, and a word. -/
theorem unpackValues_packValues_iff_string :
    unpackValues 0 ['c', '4', 's', 'h'] ([251, 0, 2, 104, 105, 1, 44] ++ [9]) =
      some [.int (-5), .str [104, 105], .int 300] := by
  have hpack : packValues ['c', '4', 's', 'h'] [.int (-5), .str [104, 105], .int 300] =
      some [251, 0, 2, 104, 105, 1, 44] := by decide
  refine (unpackValues_packValues_iff 0 hpack [9]).mpr ?_
  simp [FormatFits, FormatLetter.ofChar, FormatLetter.Fits, FitsSigned, nextMaxstrlen]

/-- A string of three characters with room for three. -/
theorem stringStores_fit_iff_exact :
    ¬ ∀ store ∈ unpackStores 0 ['3', 's'] ([0, 3, 97, 98, 99] ++ []), store.Within := by
  have hpack : packValues ['3', 's'] [.str [97, 98, 99]] = some [0, 3, 97, 98, 99] := by decide
  rw [stringStores_fit_iff (by simp [FormatValue.Short]) hpack []]
  simp [stringRooms, FormatLetter.ofChar, nextMaxstrlen]

/-! ## Formats without floating point numbers -/

section Agreement

/-- An argument of `pack` that is no floating point number. -/
def PackArg.toValue : PackArg → FormatValue
  | .int v => .int v
  | .str text => .str text

theorem ofChar_eq_none_iff (ch : Char) :
    FormatLetter.ofChar ch = none ↔ ch ∉ "cChHlLqQfdgs".toList := by
  unfold FormatLetter.ofChar
  split <;> simp_all

/-- `pack` is `packValues` on the formats that it has. -/
theorem packValues_toValue {format : List Char} {args : List PackArg}
    (hformat : ∀ ch ∈ format, ch ∉ "fdg".toList) :
    packValues format (args.map PackArg.toValue) = pack format args := by
  fun_induction pack format args with
  | case11 ch format args _ _ _ _ _ _ _ _ _ hmem =>
    cases args with
    | nil =>
      obtain ⟨letter, hletter⟩ := Option.ne_none_iff_exists'.mp
        (mt (ofChar_eq_none_iff ch).mp (not_not.mpr hmem))
      simp [packValues, hletter]
    | cons v args =>
      have hfloat := hformat ch List.mem_cons_self
      simp only [String.reduceToList, List.mem_cons, List.not_mem_nil, or_false] at hmem hfloat
      rcases hmem with rfl | rfl | rfl | rfl | rfl | rfl | rfl | rfl | rfl | rfl | rfl | rfl <;>
        cases v <;>
        simp_all [packValues, FormatLetter.ofChar, FormatLetter.put, PackArg.toValue]
  | case12 ch format args _ _ _ _ _ _ _ _ _ hmem ih =>
    simp only [packValues, (ofChar_eq_none_iff ch).mpr hmem]
    exact ih fun c hc => hformat c (List.mem_cons_of_mem ch hc)
  | _ => simp_all [packValues, FormatLetter.ofChar, FormatLetter.put, PackArg.toValue]

/-- `unpack` is `unpackValues` on these formats, when they have no lengths. -/
theorem unpackValues_toValue {maxstrlen : Nat} {format : List Char} {buf : List UInt8}
    (hformat : ∀ ch ∈ format, ch ∉ "fdg".toList ∧ ch.isDigit = false) :
    unpackValues maxstrlen format buf =
      (unpackFrom maxstrlen format buf).map (List.map PackArg.toValue) := by
  fun_induction unpackFrom maxstrlen format buf with
  | case1 => rfl
  | case10 maxstrlen format buf ih =>
    have htail := fun len => ih len fun c hc => hformat c (List.mem_cons_of_mem 's' hc)
    cases hlen : unpacku16 buf with
    | none => simp [unpackValues, FormatLetter.ofChar, FormatLetter.get, hlen]
    | some len =>
      by_cases hfits : len + 2 ≤ buf.length <;>
        simp [unpackValues, FormatLetter.ofChar, FormatLetter.get, hlen, hfits, htail,
          storedLength, PackArg.toValue, Function.comp_def]
  | case11 maxstrlen ch format buf _ _ _ _ _ _ _ _ _ hmem =>
    have hfloat := (hformat ch List.mem_cons_self).1
    simp only [String.reduceToList, List.mem_cons, List.not_mem_nil, or_false] at hmem hfloat
    have hch : ch = 'c' ∨ ch = 'C' := by tauto
    rcases hch with rfl | rfl <;> cases buf <;>
      simp_all [unpackValues, FormatLetter.ofChar, FormatLetter.get]
  | case12 maxstrlen ch format buf _ _ _ _ _ _ _ _ _ hmem ih =>
    obtain ⟨hfloat, hdigit⟩ := hformat ch List.mem_cons_self
    have hnone : FormatLetter.ofChar ch = none := by
      rw [ofChar_eq_none_iff]
      simp only [String.reduceToList, List.mem_cons, List.not_mem_nil, or_false] at hmem hfloat ⊢
      tauto
    have htail := ih fun c hc => hformat c (List.mem_cons_of_mem ch hc)
    simp only [unpackValues, hnone, nextMaxstrlen, hdigit, Bool.false_eq_true, if_false] at htail ⊢
    exact htail
  | _ =>
    simp_all [unpackValues, FormatLetter.ofChar, FormatLetter.get, PackArg.toValue,
      Function.comp_def, Option.bind_map, Option.map_bind, Option.bind_assoc]

end Agreement

end SelectServer
