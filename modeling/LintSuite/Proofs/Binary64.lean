import LintSuite.Decimal.Nearest
import Mathlib

/-!
# Rounding a decimal

A negative decimal is rounded like the decimal without its sign (`nearest_negative`): the sign is one
bit of the number, which the rounding leaves alone and which turning the sign of a number turns.

A decimal that is a whole number in the range of the format is rounded to a number near it
(`isNear_nearest`).  The rounding works on whole numbers and puts the bits of the result together; what
they say is read off them field by field (`unpack_of_fields`).

### Design decisions

**Relative error, as a rational.**  `IsNear` compares a number of the format with a rational that it
stands for, by a part of that rational.  Errors of that form are what products and quotients hand on,
so one notion serves for the rounding here and for the two operations; and since it asks for all bits
of the mantissa, it also says that the number is neither zero nor next to it.

**Bits are read off, not decoded.**  The rounding puts a result together from an exponent and a
mantissa.  Each field is read back by itself (`unpackExponent_ofNat`, `unpackMantissa_ofNat`), and
`unpack_of_fields` makes a number of them.  The sign is a bit that no other field sees, so negative
numbers need no second development.

### What is load-bearing

`scaledMantissa_bounds`: scaled to the unit that the format has at its place, a whole number fills
fifty-three bits, neither more nor fewer.  Both that the fields are in order and that the error is less
than one unit follow from it.
-/

namespace LintSuite.Decimal

open Float.Model (Format UnpackedFloat)
open Float.Model.UnpackedFloat

/-! ### Signs -/

/-- The bits of a number of the format. -/
abbrev Bits := BitVec Format.binary64.numBits

/-- Packing what was unpacked loses nothing: undefined numbers have many patterns of bits, but are
unpacked alike. -/
theorem unpack_pack_unpack (b : Bits) :
    unpack Format.binary64 (pack Format.binary64 (unpack Format.binary64 b)) =
      unpack Format.binary64 b := by
  rw [pack_unpack]
  split
  · next hnan =>
      simp only [isNaNBits, decide_eq_true_eq] at hnan
      rw [unpack_packedNaN]
      simp [unpack, hnan.1, hnan.2]
  · rfl

/-- The bit of the sign. -/
def signBit : Bits := 0x8000000000000000#64

theorem unpackSign_or_signBit (b : Bits) : unpackSign (b ||| signBit) = 1#1 := by
  have hbit : signBit.extractLsb' (52 + 11) 1 = 1#1 := by decide
  have hor : ∀ x : BitVec 1, x ||| 1#1 = 1#1 := by decide
  rw [unpackSign_def, BitVec.extractLsb'_or]
  exact (congrArg (_ ||| ·) hbit).trans (hor _)

theorem unpackExponent_or_signBit (b : Bits) :
    unpackExponent (b ||| signBit) = unpackExponent b := by
  have hbit : signBit.extractLsb' 52 11 = 0#11 := by decide
  rw [unpackExponent_def, unpackExponent_def, BitVec.extractLsb'_or]
  exact (congrArg (_ ||| ·) hbit).trans BitVec.or_zero

theorem unpackMantissa_or_signBit (b : Bits) :
    unpackMantissa (b ||| signBit) = unpackMantissa b := by
  have hbit : signBit.extractLsb' 0 52 = 0#52 := by decide
  rw [unpackMantissa_def, unpackMantissa_def, BitVec.extractLsb'_or]
  exact (congrArg (_ ||| ·) hbit).trans BitVec.or_zero

/-- The bit of the sign turns the sign and nothing else. -/
theorem unpack_or_signBit {b : Bits} (h : unpackSign b = 0#1) :
    unpack Format.binary64 (b ||| signBit) = (unpack Format.binary64 b).neg := by
  have hturn : -Sign.ofBitVec 0#1 = Sign.ofBitVec 1#1 := rfl
  simp only [unpack, unpackSign_or_signBit, unpackExponent_or_signBit, unpackMantissa_or_signBit, h]
  split_ifs <;> simp [UnpackedFloat.neg, hturn]

theorem ofBits_or_signBit {bits : UInt64}
    (h : @unpackSign Format.binary64 bits.toBitVec = 0#1) :
    Float.ofBits (bits ||| 0x8000000000000000) = -Float.ofBits bits := by
  have hunpack : unpack Format.binary64 (bits ||| 0x8000000000000000).toBitVec =
      (unpack Format.binary64
        (pack Format.binary64 (unpack Format.binary64 bits.toBitVec))).neg := by
    rw [unpack_pack_unpack]
    exact unpack_or_signBit h
  exact congrArg (fun x => Float.ofModel (Float.Model.pack x)) hunpack

/-- Small bits have no sign. -/
theorem unpackSign_ofNat {n : Nat} (h : n < 2 ^ 63) :
    @unpackSign Format.binary64 (UInt64.ofNat n).toBitVec = 0#1 := by
  have hback : (UInt64.ofNat n).toNat = n :=
    UInt64.toNat_ofNat_of_lt' (by rw [UInt64.size]; omega)
  rw [unpackSign_def]
  apply BitVec.eq_of_toNat_eq
  change ((UInt64.ofNat n).toNat >>> 63) % 2 = 0
  rw [hback, Nat.shiftRight_eq_div_pow, Nat.div_eq_of_lt h]

/-- The bits of a rounded quotient are small. -/
theorem exists_nearestBits_eq (num den : Nat) :
    ∃ n < 2 ^ 63, nearestBits num den = UInt64.ofNat n := by
  rw [nearestBits]
  split
  · exact ⟨0, by decide, rfl⟩
  simp only
  split
  · exact ⟨0x7FF0000000000000, by decide, rfl⟩
  · exact ⟨_, lt_of_le_of_lt (Nat.min_le_right _ _) (by decide), rfl⟩

/-- **A negative decimal is rounded like the decimal without its sign.** -/
theorem nearest_negative (d : Scaled) : nearest true d = -nearest false d := by
  simp only [nearest, if_true, Bool.false_eq_true, if_false]
  refine ofBits_or_signBit ?_
  split_ifs
  · exact unpackSign_ofNat (n := 0) (by decide)
  · exact unpackSign_ofNat (n := 0x7FF0000000000000) (by decide)
  · obtain ⟨n, hn, hbits⟩ := exists_nearestBits_eq (d.digits * tenTo d.exponent.toNat)
      (tenTo (-d.exponent).toNat)
    rw [hbits]
    exact unpackSign_ofNat hn

/-! ### Fields -/

theorem toNat_fields {field fraction : Nat} (hfield : field < 2047)
    (hfraction : fraction < 2 ^ 52) :
    (UInt64.ofNat (field * 2 ^ 52 + fraction)).toBitVec.toNat = field * 2 ^ 52 + fraction :=
  UInt64.toNat_ofNat_of_lt' (by rw [UInt64.size]; omega)

theorem unpackExponent_ofNat {field fraction : Nat} (hfield : field < 2047)
    (hfraction : fraction < 2 ^ 52) :
    @unpackExponent Format.binary64 (UInt64.ofNat (field * 2 ^ 52 + fraction)).toBitVec =
      BitVec.ofNat 11 field := by
  have hquotient : (field * 2 ^ 52 + fraction) / 2 ^ 52 = field := by omega
  rw [unpackExponent_def]
  apply BitVec.eq_of_toNat_eq
  rw [BitVec.extractLsb'_toNat, BitVec.toNat_ofNat, toNat_fields hfield hfraction,
    Nat.shiftRight_eq_div_pow]
  exact congrArg (· % 2 ^ 11) hquotient

theorem unpackMantissa_ofNat {field fraction : Nat} (hfield : field < 2047)
    (hfraction : fraction < 2 ^ 52) :
    @unpackMantissa Format.binary64 (UInt64.ofNat (field * 2 ^ 52 + fraction)).toBitVec =
      BitVec.ofNat 52 fraction := by
  have hremainder : (field * 2 ^ 52 + fraction) % 2 ^ 52 = fraction % 2 ^ 52 := by omega
  rw [unpackMantissa_def]
  apply BitVec.eq_of_toNat_eq
  rw [BitVec.extractLsb'_toNat, BitVec.toNat_ofNat, toNat_fields hfield hfraction,
    Nat.shiftRight_zero]
  exact hremainder

theorem toNat_one_append {fraction : Nat} (h : fraction < 2 ^ 52) :
    (1#1 ++ BitVec.ofNat 52 fraction).toNat = 2 ^ 52 + fraction := by
  rw [BitVec.toNat_append, BitVec.toNat_ofNat, BitVec.toNat_ofNat, Nat.mod_eq_of_lt h,
    ← Nat.shiftLeft_add_eq_or_of_lt h]
  rfl

/-- **A positive number by its fields**: the first bit of the mantissa counts to the exponent. -/
theorem unpack_of_fields {b : Bits} {field m : Nat} (hfield : field + 1 < 2047)
    (hlow : 2 ^ 52 ≤ m) (hhigh : m < 2 ^ 53) (hsign : unpackSign b = 0#1)
    (hexponent : unpackExponent b = BitVec.ofNat 11 (field + 1))
    (hmantissa : unpackMantissa b = BitVec.ofNat 52 (m - 2 ^ 52)) :
    ∃ hpos, unpack Format.binary64 b = .finite .positive m ((field : Int) - 1074) hpos := by
  obtain ⟨fraction, rfl⟩ := Nat.exists_eq_add_of_le hlow
  rw [Nat.add_sub_cancel_left] at hmantissa
  have hfraction : fraction < 2 ^ 52 := by omega
  have hback : (BitVec.ofNat 11 (field + 1)).toNat = field + 1 := by
    rw [BitVec.toNat_ofNat, Nat.mod_eq_of_lt (by omega)]
  have hlast : BitVec.ofNat 11 (field + 1) ≠ -1#11 := by
    intro h
    have hvalue := congrArg BitVec.toNat h
    rw [hback] at hvalue
    exact hfield.ne hvalue
  have hzero : BitVec.ofNat 11 (field + 1) ≠ 0#11 := by
    intro h
    have hvalue := congrArg BitVec.toNat h
    rw [hback] at hvalue
    exact field.succ_ne_zero hvalue
  have hbias : (Format.binary64.exponentBias : Int) = 1023 := rfl
  refine ⟨by positivity, ?_⟩
  simp only [unpack, hsign, hexponent, hmantissa]
  rw [if_neg hlast, if_neg hzero]
  simp only [hback, toNat_one_append hfraction, hbias]
  congr 1
  omega

/-- The bits that are put together from an exponent and a mantissa. -/
theorem unpack_ofNat {field m : Nat} (hfield : field < 2046) (hlow : 2 ^ 52 ≤ m)
    (hhigh : m < 2 ^ 53) :
    ∃ hpos, unpack Format.binary64 (UInt64.ofNat (field * 2 ^ 52 + m)).toBitVec =
      .finite .positive m ((field : Int) - 1074) hpos := by
  have hbits : field * 2 ^ 52 + m = (field + 1) * 2 ^ 52 + (m - 2 ^ 52) := by omega
  have hfield' : field + 1 < 2047 := by omega
  have hfraction : m - 2 ^ 52 < 2 ^ 52 := by omega
  have hsign := unpackSign_ofNat (n := (field + 1) * 2 ^ 52 + (m - 2 ^ 52)) (by omega)
  have hexponent := unpackExponent_ofNat hfield' hfraction
  have hmantissa := unpackMantissa_ofNat hfield' hfraction
  rw [hbits]
  exact unpack_of_fields hfield' hlow hhigh hsign hexponent hmantissa

/-! ### Rounding whole numbers -/

theorem roundHalfEven_bounds (num den : Nat) :
    num / den ≤ roundHalfEven num den ∧ roundHalfEven num den ≤ num / den + 1 := by
  rw [roundHalfEven]
  split
  · omega
  · omega
  · split <;> omega

theorem twoTo_eq (n : Nat) : twoTo n = 2 ^ n := rfl

theorem log2_le_of_lt {n k : Nat} (h : 0 < n) (hlt : n < twoTo (k + 1)) : n.log2 ≤ k :=
  Nat.le_of_lt_succ ((Nat.log2_lt h.ne').mpr hlt)

/-- The powers of ten that are used are in the range of the format. -/
theorem log2_le_of_le {n : Nat} (h : 0 < n) (hle : n ≤ tenTo 308) : n.log2 ≤ 1023 := by
  have hpower : tenTo 308 < twoTo (1023 + 1) := by decide +kernel
  exact log2_le_of_lt h (lt_of_le_of_lt hle hpower)

/-- The unit at a whole number: fifty-three bits stand before the point. -/
theorem unitAt_natural {n : Nat} (h : 0 < n) : unitAt n 1 = (n.log2 : Int) - 52 := by
  have hlow : 2 ^ n.log2 ≤ n := Nat.log2_self_le h.ne'
  have hone : Nat.log2 1 = 0 := by decide
  have hwide : 1 * twoTo ((n.log2 : Int) - 52 - 1).toNat * twoTo 53 ≤
      n * twoTo (1 - ((n.log2 : Int) - 52)).toNat := by
    change 1 * 2 ^ ((n.log2 : Int) - 52 - 1).toNat * 2 ^ 53 ≤
      n * 2 ^ (1 - ((n.log2 : Int) - 52)).toNat
    rcases Nat.le_total 53 n.log2 with hle | hle
    · obtain ⟨k, hk⟩ := Nat.exists_eq_add_of_le hle
      have hfirst : ((n.log2 : Int) - 52 - 1).toNat = k := by omega
      have hsecond : (1 - ((n.log2 : Int) - 52)).toNat = 0 := by omega
      rw [hfirst, hsecond, Nat.one_mul, ← Nat.pow_add, pow_zero, Nat.mul_one, Nat.add_comm k, ← hk]
      exact hlow
    · obtain ⟨k, hk⟩ := Nat.exists_eq_add_of_le hle
      have hfirst : ((n.log2 : Int) - 52 - 1).toNat = 0 := by omega
      have hsecond : (1 - ((n.log2 : Int) - 52)).toNat = k := by omega
      rw [hfirst, hsecond, pow_zero, Nat.one_mul, Nat.one_mul, hk, Nat.pow_add]
      exact Nat.mul_le_mul_right _ hlow
  rw [unitAt, hone]
  simp only [Nat.cast_zero, sub_zero, hwide, if_true]
  omega

/-- **A positive number near a rational**, which it differs from by no more than the given part of
it.  The number has all bits of its mantissa. -/
def IsNear (part : ℚ) (x : Float) (r : ℚ) : Prop :=
  ∃ m e hpos, x.toModel.unpack = .finite .positive m e hpos ∧ 2 ^ 52 ≤ m ∧ m < 2 ^ 53 ∧
    r * (1 - part) ≤ m * 2 ^ e ∧ m * 2 ^ e ≤ r * (1 + part)

/-- Zero is not near a positive number. -/
theorem IsNear.ne_zero {part : ℚ} {x : Float} {r : ℚ} (h : IsNear part x r) :
    (x == 0.0) = false := by
  obtain ⟨m, e, hpos, hx, -⟩ := h
  have hzero : (0.0 : Float).toModel.unpack = .zero .positive := rfl
  change (x.toModel.unpack.compare (0.0 : Float).toModel.unpack == some .eq) = false
  rw [hx, hzero]
  rfl

/-- The part of a number that rounding it once may change. -/
def roundingPart : ℚ := 1 / 2 ^ 52

theorem unpack_ofBits (bits : UInt64) :
    (Float.ofBits bits).toModel.unpack = unpack Format.binary64 bits.toBitVec :=
  unpack_pack_unpack _

theorem abs_roundHalfEven_sub_le (num : Nat) {den : Nat} (hden : 0 < den) :
    |(roundHalfEven num den : ℚ) - num / den| ≤ 1 := by
  obtain ⟨hlow, hhigh⟩ := roundHalfEven_bounds num den
  have hpos : (0 : ℚ) < den := by exact_mod_cast hden
  have hfloor : ((num / den : Nat) : ℚ) ≤ num / den := Nat.cast_div_le
  have hceil : (num : ℚ) / den < (num / den : Nat) + 1 := by
    rw [div_lt_iff₀ hpos]
    exact_mod_cast Nat.lt_mul_of_div_lt (Nat.lt_succ_self _) hden
  have hlow' : ((num / den : Nat) : ℚ) ≤ roundHalfEven num den := by exact_mod_cast hlow
  have hhigh' : (roundHalfEven num den : ℚ) ≤ (num / den : Nat) + 1 := by exact_mod_cast hhigh
  rw [abs_le]
  constructor <;> linarith

/-- A whole number scaled so that fifty-three bits stand before the point. -/
theorem scaled_bounds {n : Nat} (h : 0 < n) :
    2 ^ 52 * 2 ^ (n.log2 - 52) ≤ n * 2 ^ (52 - n.log2) ∧
      n * 2 ^ (52 - n.log2) < 2 ^ 53 * 2 ^ (n.log2 - 52) := by
  have hlow : 2 ^ n.log2 ≤ n := Nat.log2_self_le h.ne'
  have hhigh : n < 2 ^ (n.log2 + 1) := Nat.lt_log2_self
  rcases Nat.le_total 52 n.log2 with hle | hle
  · obtain ⟨k, hk⟩ := Nat.exists_eq_add_of_le hle
    have hfirst : n.log2 - 52 = k := by omega
    have hsecond : 52 - n.log2 = 0 := by omega
    rw [hfirst, hsecond, pow_zero, Nat.mul_one, ← Nat.pow_add, ← Nat.pow_add, ← hk]
    refine ⟨hlow, ?_⟩
    have hpow : 53 + k = n.log2 + 1 := by omega
    rwa [hpow]
  · obtain ⟨k, hk⟩ := Nat.exists_eq_add_of_le hle
    have hfirst : n.log2 - 52 = 0 := by omega
    have hsecond : 52 - n.log2 = k := by omega
    have hpow : 53 = n.log2 + 1 + k := by omega
    rw [hfirst, hsecond, pow_zero, Nat.mul_one, Nat.mul_one]
    constructor
    · calc 2 ^ 52 = 2 ^ n.log2 * 2 ^ k := by rw [← Nat.pow_add, ← hk]
        _ ≤ n * 2 ^ k := Nat.mul_le_mul_right _ hlow
    · calc n * 2 ^ k < 2 ^ (n.log2 + 1) * 2 ^ k := Nat.mul_lt_mul_of_pos_right hhigh (by positivity)
        _ = 2 ^ 53 := by rw [← Nat.pow_add, ← hpow]

theorem two_zpow_unit (n : Nat) :
    (2 : ℚ) ^ ((n.log2 : Int) - 52) = 2 ^ (n.log2 - 52) / 2 ^ (52 - n.log2) := by
  rcases Nat.le_total 52 n.log2 with hle | hle
  · have hsecond : 52 - n.log2 = 0 := by omega
    rw [hsecond, pow_zero, div_one, ← zpow_natCast]
    congr 1
    omega
  · have hfirst : n.log2 - 52 = 0 := by omega
    rw [hfirst, pow_zero, one_div, ← zpow_natCast, ← zpow_neg]
    congr 1
    omega

/-- A whole number scaled and rounded. -/
def scaledMantissa (n : Nat) : Nat :=
  roundHalfEven (n * 2 ^ (52 - n.log2)) (2 ^ (n.log2 - 52))

theorem scaledMantissa_bounds {n : Nat} (h : 0 < n) :
    2 ^ 52 ≤ scaledMantissa n ∧ scaledMantissa n ≤ 2 ^ 53 := by
  obtain ⟨hlow, hhigh⟩ := scaled_bounds h
  obtain ⟨hfloor, hceil⟩ := roundHalfEven_bounds (n * 2 ^ (52 - n.log2)) (2 ^ (n.log2 - 52))
  have hden : 0 < 2 ^ (n.log2 - 52) := by positivity
  have hfrom : 2 ^ 52 ≤ n * 2 ^ (52 - n.log2) / 2 ^ (n.log2 - 52) :=
    (Nat.le_div_iff_mul_le hden).mpr hlow
  have hto : n * 2 ^ (52 - n.log2) / 2 ^ (n.log2 - 52) < 2 ^ 53 :=
    (Nat.div_lt_iff_lt_mul hden).mpr hhigh
  exact ⟨hfrom.trans hfloor, hceil.trans hto⟩

/-- The rounding is off by one unit at most. -/
theorem scaledMantissa_near {n : Nat} (h : 0 < n) :
    (n : ℚ) * (1 - roundingPart) ≤ scaledMantissa n * 2 ^ ((n.log2 : Int) - 52) ∧
      scaledMantissa n * 2 ^ ((n.log2 : Int) - 52) ≤ (n : ℚ) * (1 + roundingPart) := by
  have hden : 0 < 2 ^ (n.log2 - 52) := by positivity
  have hnear := abs_roundHalfEven_sub_le (n * 2 ^ (52 - n.log2)) hden
  have hunit := two_zpow_unit n
  have hpos : (0 : ℚ) < 2 ^ ((n.log2 : Int) - 52) := by positivity
  have hscaled : ((n * 2 ^ (52 - n.log2) : Nat) : ℚ) / (2 ^ (n.log2 - 52) : Nat) =
      n / 2 ^ ((n.log2 : Int) - 52) := by
    rw [hunit]
    push_cast
    field_simp
  have hsmall : (2 : ℚ) ^ ((n.log2 : Int) - 52) ≤ n / 2 ^ 52 := by
    obtain ⟨hlow, -⟩ := scaled_bounds h
    rw [hunit, le_div_iff₀ (by positivity), div_mul_eq_mul_div, div_le_iff₀ (by positivity)]
    have hcast : ((2 ^ 52 * 2 ^ (n.log2 - 52) : Nat) : ℚ) ≤ (n * 2 ^ (52 - n.log2) : Nat) := by
      exact_mod_cast hlow
    push_cast at hcast
    linarith
  rw [hscaled] at hnear
  have hoff : |(scaledMantissa n : ℚ) * 2 ^ ((n.log2 : Int) - 52) - n| ≤ n * roundingPart := by
    calc |(scaledMantissa n : ℚ) * 2 ^ ((n.log2 : Int) - 52) - n|
        = |(scaledMantissa n : ℚ) - n / 2 ^ ((n.log2 : Int) - 52)| *
            2 ^ ((n.log2 : Int) - 52) := by
          rw [← abs_of_pos hpos, ← abs_mul, abs_of_pos hpos, sub_mul,
            div_mul_cancel₀ _ hpos.ne']
      _ ≤ 1 * 2 ^ ((n.log2 : Int) - 52) := mul_le_mul_of_nonneg_right hnear hpos.le
      _ ≤ n * roundingPart := by rwa [one_mul, roundingPart, mul_one_div]
  rw [abs_le] at hoff
  constructor <;> linarith [hoff.1, hoff.2]

/-- The rounding does not reach the next power of two from below its last unit. -/
theorem scaledMantissa_lt {n k : Nat} (hlog : n.log2 = 52 + k)
    (hlt : n / twoTo k + 1 < 2 ^ 53) : scaledMantissa n < 2 ^ 53 := by
  have hfirst : 52 - n.log2 = 0 := by omega
  have hsecond : n.log2 - 52 = k := by omega
  obtain ⟨-, hceil⟩ := roundHalfEven_bounds n (2 ^ k)
  rw [scaledMantissa, hfirst, hsecond, pow_zero, Nat.mul_one]
  exact lt_of_le_of_lt hceil hlt

theorem scaledMantissa_lt_of_le {n : Nat} (hlog : n.log2 = 1023) (hle : n ≤ tenTo 308) :
    scaledMantissa n < 2 ^ 53 := by
  have hpower : tenTo 308 / twoTo 971 + 1 < 2 ^ 53 := by decide +kernel
  have hdiv : n / twoTo 971 ≤ tenTo 308 / twoTo 971 := Nat.div_le_div_right hle
  exact scaledMantissa_lt hlog (lt_of_le_of_lt (Nat.add_le_add_right hdiv 1) hpower)

theorem nearestBits_natural {n : Nat} (h : 0 < n) (hle : n ≤ tenTo 308) :
    nearestBits n 1 = UInt64.ofNat ((n.log2 + 1022) * 2 ^ 52 + scaledMantissa n) := by
  have hlog := log2_le_of_le h hle
  have hunit := unitAt_natural h
  have hs : (-((n.log2 : Int) - 52)).toNat = 52 - n.log2 := by omega
  have ht : ((n.log2 : Int) - 52).toNat = n.log2 - 52 := by omega
  have hfield : ((n.log2 : Int) - 52 + 1074).toNat = n.log2 + 1022 := by omega
  have hrange : ¬(972 ≤ (n.log2 : Int) - 52) := by omega
  have hmantissa : roundHalfEven (n * twoTo (52 - n.log2)) (1 * twoTo (n.log2 - 52)) =
      scaledMantissa n := by rw [Nat.one_mul, scaledMantissa, twoTo_eq, twoTo_eq]
  have hmin : (n.log2 + 1022) * twoTo 52 + scaledMantissa n ≤ 0x7FF0000000000000 := by
    obtain ⟨-, hhigh⟩ := scaledMantissa_bounds h
    rw [twoTo_eq]
    omega
  have hne : (n == 0) = false := beq_eq_false_iff_ne.mpr h.ne'
  rw [nearestBits, hne]
  simp only [Bool.false_eq_true, if_false, hunit, hs, ht, hfield, hrange, hmantissa,
    Nat.min_eq_left hmin]
  rw [twoTo_eq]

/-- **A whole number is rounded to a number near it.** -/
theorem isNear_natural {n : Nat} (h : 0 < n) (hle : n ≤ tenTo 308) :
    IsNear roundingPart (Float.ofBits (nearestBits n 1)) n := by
  have hlog := log2_le_of_le h hle
  have hnear := scaledMantissa_near h
  obtain ⟨hlow, hhigh⟩ := scaledMantissa_bounds h
  rcases Nat.lt_or_eq_of_le hhigh with hlt | heq
  · have hfield : n.log2 + 1022 < 2046 := by omega
    have hexp : ((n.log2 + 1022 : Nat) : Int) - 1074 = (n.log2 : Int) - 52 := by omega
    obtain ⟨hpos, hunpack⟩ := unpack_ofNat hfield hlow hlt
    rw [hexp] at hunpack
    refine ⟨scaledMantissa n, (n.log2 : Int) - 52, hpos, ?_, hlow, hlt, hnear⟩
    rw [unpack_ofBits, nearestBits_natural h hle, hunpack]
  · -- The rounding reached the next power of two.
    have hlog' : n.log2 ≠ 1023 := fun hlast => (scaledMantissa_lt_of_le hlast hle).ne heq
    have hfield : n.log2 + 1023 < 2046 := by omega
    have hbits : (n.log2 + 1022) * 2 ^ 52 + scaledMantissa n =
        (n.log2 + 1023) * 2 ^ 52 + 2 ^ 52 := by omega
    have hexp : ((n.log2 + 1023 : Nat) : Int) - 1074 = (n.log2 : Int) - 52 + 1 := by omega
    obtain ⟨hpos, hunpack⟩ := unpack_ofNat hfield le_rfl (by decide)
    rw [hexp] at hunpack
    have hvalue : ((2 ^ 52 : Nat) : ℚ) * 2 ^ ((n.log2 : Int) - 52 + 1) =
        (scaledMantissa n : ℚ) * 2 ^ ((n.log2 : Int) - 52) := by
      rw [heq, zpow_add_one₀ (by norm_num)]
      push_cast
      ring
    refine ⟨2 ^ 52, (n.log2 : Int) - 52 + 1, hpos, ?_, le_rfl, by decide, ?_⟩
    · rw [unpack_ofBits, nearestBits_natural h hle, hbits, hunpack]
    · rw [hvalue]
      exact hnear

theorem tenTo_le_tenTo_iff {m n : Nat} : tenTo m ≤ tenTo n ↔ m ≤ n :=
  Nat.pow_le_pow_iff_right (by decide)

theorem tenTo_add (m n : Nat) : tenTo (m + n) = tenTo m * tenTo n := Nat.pow_add 10 m n

/-- **A decimal that is a whole number is rounded to a number near it.** -/
theorem isNear_nearest {digits k : Nat} (h : 0 < digits) (hle : digits * tenTo k ≤ tenTo 308) :
    IsNear roundingPart (nearest false ⟨digits, k⟩) (digits * tenTo k : Nat) := by
  have hk : k ≤ 308 := tenTo_le_tenTo_iff.mp ((Nat.le_mul_of_pos_left _ h).trans hle)
  have hdigits : digits < tenTo (309 - k) := by
    have hsplit : tenTo (308 + 1) = tenTo (309 - k) * tenTo k := by
      rw [← tenTo_add]
      congr 1
      omega
    have hlt : digits * tenTo k < tenTo (309 - k) * tenTo k := by
      rw [← hsplit]
      have hpos := tenTo_pos 308
      rw [tenTo_succ]
      omega
    exact Nat.lt_of_mul_lt_mul_right hlt
  have hlength : (Nat.toDigits 10 digits).length ≤ 309 - k :=
    Nat.toDigits_length 10 digits (309 - k) (by omega) hdigits
  have hne : (digits == 0) = false := beq_eq_false_iff_ne.mpr h.ne'
  have hnear := isNear_natural (Nat.mul_pos h (tenTo_pos k)) hle
  have hbelow : ¬(((Nat.toDigits 10 digits).length : Int) + k < -400) := by omega
  have habove : ¬(400 < ((Nat.toDigits 10 digits).length : Int) + k) := by omega
  have hfirst : (k : Int).toNat = k := by omega
  have hsecond : (-(k : Int)).toNat = 0 := by omega
  simp only [nearest, hne, hbelow, habove, hfirst, hsecond, decide_false, Bool.or_self,
    Bool.false_eq_true, if_false, tenTo_zero]
  exact hnear

end LintSuite.Decimal
