import LintSuite.Proofs.Binary64

/-!
# The range of a product

A product of two numbers of the format is the product of their mantissas, rounded and packed.  It is
infinite exactly if the rounded mantissa does not fit below the greatest exponent
(`isInf_unpack_pack`), so what is well beyond the range of the format is infinite (`isInf_mul`) and
what is well within it is finite (`not_isInf_mul`).  Between the two the rounding decides, of the
factors and of the product.

### Design decisions

**Infinity is a question of the exponent.**  Whether a result is infinite is asked of the bits that
are packed, and they are never computed here: `isInf_unpack_pack` turns the question into one about the
exponent of the rounded mantissa, and everything else is an inequality between rationals.

**A gap in the middle.**  `isInf_mul` and `not_isInf_mul` leave a small range between them, in which
the last bit of the rounding decides.  They are stated with room for the errors of the factors
(`isInf_mul_of_le`, `not_isInf_mul_of_le`), since a factor is seldom exact where they are used.

### What is load-bearing

`roundWithAccuracy_eq`: the rounding of a positive number is a shift, a rounding to a neighbour, and
perhaps one more shift.  It is the only place where the definition of the rounding is opened.
-/

namespace LintSuite.Decimal

open Float.Model (Format UnpackedFloat)
open Float.Model.UnpackedFloat

/-! ### Packing -/

theorem isInf_unpack_of_ne {b : Bits} (h : unpackExponent b ≠ -1#11) :
    (unpack Format.binary64 b).isInf = false := by
  simp only [unpack]
  rw [if_neg h]
  split_ifs <;> rfl

/-- A number is infinite once it is packed exactly if its exponent is too large. -/
theorem isInf_unpack_pack (s : Sign) (m : Nat) (e : Int) (h : 0 < m) :
    (unpack Format.binary64 (pack Format.binary64 (.finite s m e h))).isInf =
      decide (972 ≤ e) := by
  have hbias : (Format.binary64.exponentBias : Int) = 1023 := rfl
  have hguard : 2 ^ Format.binary64.exponentBits ≤ (e + 1023 + (52 : Nat)).toNat + 1 ↔
      972 ≤ e := by
    change 2048 ≤ (e + 1023 + (52 : Nat)).toNat + 1 ↔ _
    omega
  rw [pack.eq_4]
  simp only [hbias]
  by_cases hlarge : 972 ≤ e
  · rw [if_pos (hguard.mpr hlarge), decide_eq_true hlarge]
    simp [unpack, packedInfinity, UnpackedFloat.isInf]
  · have hfield : BitVec.ofNat 11 (e + 1023 + (52 : Nat)).toNat ≠ -1#11 := by
      intro hall
      have hvalue := congrArg BitVec.toNat hall
      rw [BitVec.toNat_ofNat, Nat.mod_eq_of_lt (by omega)] at hvalue
      change _ = 2047 at hvalue
      omega
    rw [if_neg (hguard.not.mpr hlarge), decide_eq_false hlarge]
    split
    · exact isInf_unpack_of_ne (by rw [unpackExponent_packComponents]; exact hfield)
    · exact isInf_unpack_of_ne (by rw [unpackExponent_packComponents]; decide)

/-! ### Rounding -/

theorem mantissa_shiftRight (em : ExtendedMantissa) (k : Nat) :
    (em >>> k).mantissa = em.mantissa / 2 ^ k := by
  induction k with
  | zero => exact (Nat.div_one _).symm
  | succ k ih =>
      change (em >>> k).mantissa / 2 = _
      rw [ih, Nat.div_div_eq_div_mul, Nat.pow_succ]

/-- A mantissa is rounded to itself or to the next one. -/
theorem roundedMantissa_bounds (em : ExtendedMantissa) :
    em.mantissa ≤ em.roundedMantissa ∧ em.roundedMantissa ≤ em.mantissa + 1 := by
  obtain ⟨m, roundBit, stickyBit⟩ := em
  cases roundBit <;> cases stickyBit <;>
    simp only [ExtendedMantissa.roundedMantissa, ExtendedMantissa.accuracy,
      Accuracy.roundToNearestEven] <;> omega

theorem mantissa_ofMantissaAndAccuracy (m : Nat) (acc : Accuracy) :
    (ExtendedMantissa.ofMantissaAndAccuracy m acc).mantissa = m := by
  cases acc with
  | exact => rfl
  | inexact side => cases side <;> rfl

/-- A shift to the exponent that the format asks for. -/
theorem shiftToTargetExponent_eq (m : Nat) (e : Int) (acc : Accuracy) :
    let k := (max ((m.log2 : Int) + 1 + e - 53) (-1074) - e).toNat
    (shiftToTargetExponent Format.binary64 m e acc).1.mantissa = m / 2 ^ k ∧
      (shiftToTargetExponent Format.binary64 m e acc).2 = e + k := by
  intro k
  refine ⟨?_, rfl⟩
  have hshift := mantissa_shiftRight (ExtendedMantissa.ofMantissaAndAccuracy m acc) k
  rwa [mantissa_ofMantissaAndAccuracy] at hshift

/-- A number is shifted, rounded and shifted again. -/
theorem roundWithAccuracy_steps (m : Nat) (e : Int) (acc : Accuracy)
    {first second : ExtendedMantissa × Int}
    (hfirst : shiftToTargetExponent Format.binary64 m e acc = first)
    (hsecond : shiftToTargetExponent Format.binary64 first.1.roundedMantissa first.2 .exact =
      second) :
    (second.1.mantissa = 0 ∧
      roundWithAccuracy Format.binary64 .positive m e acc = .zero .positive) ∨
    ∃ h, roundWithAccuracy Format.binary64 .positive m e acc =
      .finite .positive second.1.mantissa second.2 h := by
  subst hfirst hsecond
  rw [roundWithAccuracy]
  by_cases hzero : (shiftToTargetExponent Format.binary64
      (shiftToTargetExponent Format.binary64 m e acc).1.roundedMantissa
      (shiftToTargetExponent Format.binary64 m e acc).2 .exact).1.mantissa = 0
  · exact .inl ⟨hzero, dif_pos hzero⟩
  · exact .inr ⟨Nat.pos_of_ne_zero hzero, dif_neg hzero⟩

/-- **What the rounding of a positive number comes to**: its mantissa is shifted and rounded, and
shifted again if it has grown. -/
theorem roundWithAccuracy_eq (m : Nat) (e : Int) (acc : Accuracy) :
    ∃ (k r j : Nat), k = (max ((m.log2 : Int) + 1 + e - 53) (-1074) - e).toNat ∧
      m / 2 ^ k ≤ r ∧ r ≤ m / 2 ^ k + 1 ∧
      j = (max ((r.log2 : Int) + 1 + (e + k) - 53) (-1074) - (e + k)).toNat ∧
      ((r / 2 ^ j = 0 ∧
        roundWithAccuracy Format.binary64 .positive m e acc = .zero .positive) ∨
      ∃ h, roundWithAccuracy Format.binary64 .positive m e acc =
        .finite .positive (r / 2 ^ j) (e + k + j) h) := by
  obtain ⟨hlow, hhigh⟩ :=
    roundedMantissa_bounds (shiftToTargetExponent Format.binary64 m e acc).1
  rw [(shiftToTargetExponent_eq m e acc).1] at hlow hhigh
  obtain ⟨hmantissa, hexponent⟩ := shiftToTargetExponent_eq
    (shiftToTargetExponent Format.binary64 m e acc).1.roundedMantissa
    (shiftToTargetExponent Format.binary64 m e acc).2 .exact
  refine ⟨_, _, _, rfl, hlow, hhigh, rfl, ?_⟩
  have hsteps := roundWithAccuracy_steps m e acc rfl rfl
  rwa [hmantissa, hexponent] at hsteps

/-- A number that is rounded and packed. -/
def packed (m : Nat) (e : Int) (acc : Accuracy) : UnpackedFloat :=
  unpack Format.binary64
    (pack Format.binary64 (roundWithAccuracy Format.binary64 .positive m e acc))

/-- **A number beyond the range is infinite** once it is rounded. -/
theorem isInf_packed {m : Nat} {e : Int} (acc : Accuracy) (hm : 52 ≤ m.log2)
    (h : 1024 ≤ (m.log2 : Int) + e) : (packed m e acc).isInf = true := by
  obtain ⟨k, r, j, hk, hlow, -, hj, hround⟩ := roundWithAccuracy_eq m e acc
  have hk' : k = m.log2 - 52 := by omega
  have hpos : m ≠ 0 := by
    rintro rfl
    simp at hm
  have hr : 2 ^ 52 ≤ r := by
    refine le_trans ?_ hlow
    rw [hk', Nat.le_div_iff_mul_le (by positivity), ← Nat.pow_add, Nat.add_sub_cancel' hm]
    exact Nat.log2_self_le hpos
  have hr0 : r ≠ 0 := by
    rintro rfl
    simp at hr
  have hlog : 52 ≤ r.log2 := (Nat.le_log2 hr0).mpr hr
  have hj' : j ≤ r.log2 := by omega
  have hne : r / 2 ^ j ≠ 0 := by
    have hle : 2 ^ j ≤ r := (Nat.pow_le_pow_right (by decide) hj').trans (Nat.log2_self_le hr0)
    exact (Nat.div_pos hle (by positivity)).ne'
  obtain ⟨hzero, -⟩ | ⟨hmantissa, hround⟩ := hround
  · exact absurd hzero hne
  · rw [packed, hround, isInf_unpack_pack, decide_eq_true_iff]
    omega

/-- **A number within the range is finite** once it is rounded, if the rounding does not lead out of
it. -/
theorem not_isInf_packed {m : Nat} {e : Int} (acc : Accuracy) (hm : 52 ≤ m.log2)
    (h : (m.log2 : Int) + e ≤ 1023)
    (hlast : (m.log2 : Int) + e = 1023 → m / 2 ^ (m.log2 - 52) + 1 < 2 ^ 53) :
    (packed m e acc).isInf = false := by
  obtain ⟨k, r, j, hk, -, hhigh, hj, hround⟩ := roundWithAccuracy_eq m e acc
  have hk' : m.log2 - 52 ≤ k := by omega
  have hshift : m / 2 ^ k ≤ m / 2 ^ (m.log2 - 52) :=
    Nat.div_le_div_left (Nat.pow_le_pow_right (by decide) hk') (by positivity)
  have hsmall : m / 2 ^ (m.log2 - 52) < 2 ^ 53 := by
    rw [Nat.div_lt_iff_lt_mul (by positivity), ← Nat.pow_add]
    have hpow : 53 + (m.log2 - 52) = m.log2 + 1 := by omega
    rw [hpow]
    exact Nat.lt_log2_self
  have hexponent : e + k + j ≤ 971 := by
    by_cases hr0 : r = 0
    · subst hr0
      simp only [Nat.log2_zero] at hj
      omega
    by_cases hedge : (m.log2 : Int) + e = 1023
    · have hlt : r < 2 ^ 53 := by
        have hlast' := hlast hedge
        omega
      have hlog : r.log2 < 53 := (Nat.log2_lt hr0).mpr hlt
      omega
    · have hlt : r < 2 ^ 54 := by omega
      have hlog : r.log2 < 54 := (Nat.log2_lt hr0).mpr hlt
      omega
  obtain ⟨-, hzero⟩ | ⟨hmantissa, hround⟩ := hround
  · rw [packed, hzero, pack.eq_3, unpack_packedZero]
    rfl
  · rw [packed, hround, isInf_unpack_pack, decide_eq_false_iff_not]
    omega

/-! ### Products -/

theorem cast_twoTo (n : Nat) : ((twoTo n : Nat) : ℚ) = 2 ^ (n : Int) := by
  rw [twoTo_eq, Nat.cast_pow, zpow_natCast]
  rfl

/-- A number is infinite if it says so once it is unpacked. -/
theorem isInf_eq (x : Float) : x.isInf = x.toModel.unpack.isInf := rfl

/-- The order of magnitude of a number. -/
theorem zpow_log2_bounds {m : Nat} (hm : 0 < m) (e : Int) :
    (2 : ℚ) ^ ((m.log2 : Int) + e) ≤ m * 2 ^ e ∧
      (m : ℚ) * 2 ^ e < 2 ^ ((m.log2 : Int) + e + 1) := by
  have hlow : ((2 ^ m.log2 : Nat) : ℚ) ≤ m := by exact_mod_cast Nat.log2_self_le hm.ne'
  have hhigh : (m : ℚ) < (2 ^ (m.log2 + 1) : Nat) := by exact_mod_cast Nat.lt_log2_self
  have hpos : (0 : ℚ) < 2 ^ e := by positivity
  constructor
  · rw [zpow_add₀ (by norm_num), zpow_natCast]
    push_cast at hlow
    exact mul_le_mul_of_nonneg_right hlow hpos.le
  · have hsplit : (m.log2 : Int) + e + 1 = ((m.log2 + 1 : Nat) : Int) + e := by omega
    rw [hsplit, zpow_add₀ (by norm_num), zpow_natCast]
    push_cast at hhigh
    exact mul_lt_mul_of_pos_right hhigh hpos

section Product

variable {x y : Float} {a b : ℚ} (hx : IsNear roundingPart x a) (hy : IsNear roundingPart y b)
  (ha : 0 < a) (hb : 0 < b)

include hx hy ha hb

/-- What numbers near two others make: a product of their mantissas, near the product. -/
theorem exists_mul_eq :
    ∃ (m : Nat) (e : Int), (x * y).toModel.unpack = packed m e .exact ∧ 2 ^ 104 ≤ m ∧
      a * b * (1 - roundingPart) ^ 2 ≤ m * 2 ^ e ∧
      m * 2 ^ e ≤ a * b * (1 + roundingPart) ^ 2 := by
  obtain ⟨m, e, hm, hxm, hmlow, -, hxlow, hxhigh⟩ := hx
  obtain ⟨n, f, hn, hyn, hnlow, -, hylow, hyhigh⟩ := hy
  have hproduct : (x * y).toModel.unpack = packed (m * n) (e + f) .exact := by
    change unpack Format.binary64 (pack Format.binary64
      (mul Format.binary64 x.toModel.unpack y.toModel.unpack)) = _
    rw [hxm, hyn]
    rfl
  have hvalue : ((m * n : Nat) : ℚ) * 2 ^ (e + f) = m * 2 ^ e * (n * 2 ^ f) := by
    rw [zpow_add₀ (by norm_num)]
    push_cast
    ring
  have hshrink : 0 < 1 - roundingPart := by norm_num [roundingPart]
  have hgrow : 0 < 1 + roundingPart := by norm_num [roundingPart]
  refine ⟨m * n, e + f, hproduct, ?_, ?_, ?_⟩
  · calc 2 ^ 104 = 2 ^ 52 * 2 ^ 52 := by norm_num
      _ ≤ m * n := Nat.mul_le_mul hmlow hnlow
  · have hsquare : a * b * (1 - roundingPart) ^ 2 =
        a * (1 - roundingPart) * (b * (1 - roundingPart)) := by ring
    rw [hvalue, hsquare]
    gcongr
  · have hsquare : a * b * (1 + roundingPart) ^ 2 =
        a * (1 + roundingPart) * (b * (1 + roundingPart)) := by ring
    rw [hvalue, hsquare]
    gcongr

/-- A product beyond the range is infinite, if the rounding of its factors leaves it there. -/
theorem isInf_mul_of_le {limit bound : Nat} (hlimit : (limit : ℚ) = 2 ^ ((1024 : Nat) : Int))
    (hrange : limit * (2 ^ 52) ^ 2 ≤ bound * 4503599627370495 ^ 2) (h : (bound : ℚ) ≤ a * b) :
    (x * y).isInf = true := by
  obtain ⟨m, e, hproduct, hm, hlow, -⟩ := exists_mul_eq hx hy ha hb
  have hpos : 0 < m := by omega
  have hlog : 104 ≤ m.log2 := (Nat.le_log2 hpos.ne').mpr hm
  have hrange' : (limit : ℚ) * (2 ^ 52) ^ 2 ≤ bound * 4503599627370495 ^ 2 := by
    exact_mod_cast hrange
  have hvalue : (limit : ℚ) ≤ m * 2 ^ e := by
    calc (limit : ℚ)
        ≤ bound * (1 - roundingPart) ^ 2 := by
          rw [roundingPart]
          linarith
      _ ≤ a * b * (1 - roundingPart) ^ 2 := mul_le_mul_of_nonneg_right h (sq_nonneg _)
      _ ≤ m * 2 ^ e := hlow
  have hexponent : ((1024 : Nat) : Int) < (m.log2 : Int) + e + 1 := by
    have hlt := lt_of_le_of_lt hvalue (zpow_log2_bounds hpos e).2
    rw [hlimit] at hlt
    exact (zpow_lt_zpow_iff_right₀ (by norm_num)).mp hlt
  rw [isInf_eq, hproduct]
  exact isInf_packed .exact (by omega) (by omega)

/-- A product within the range is finite, if the rounding of its factors leaves it there. -/
theorem not_isInf_mul_of_le {unit bound : Nat} (hunit : (unit : ℚ) = 2 ^ ((971 : Nat) : Int))
    (hrange : bound * 4503599627370497 ^ 2 ≤ 9007199254740990 * unit * (2 ^ 52) ^ 2)
    (h : a * b ≤ (bound : ℚ)) : (x * y).isInf = false := by
  obtain ⟨m, e, hproduct, hm, -, hhigh⟩ := exists_mul_eq hx hy ha hb
  have hpos : 0 < m := by omega
  have hlog : 104 ≤ m.log2 := (Nat.le_log2 hpos.ne').mpr hm
  have hrange' : (bound : ℚ) * 4503599627370497 ^ 2 ≤ 9007199254740990 * unit * (2 ^ 52) ^ 2 := by
    exact_mod_cast hrange
  have hvalue : (m : ℚ) * 2 ^ e ≤ 9007199254740990 * 2 ^ ((971 : Nat) : Int) := by
    rw [← hunit]
    calc (m : ℚ) * 2 ^ e ≤ a * b * (1 + roundingPart) ^ 2 := hhigh
      _ ≤ bound * (1 + roundingPart) ^ 2 := mul_le_mul_of_nonneg_right h (sq_nonneg _)
      _ ≤ 9007199254740990 * unit := by
        rw [roundingPart]
        linarith
  have hexponent : (m.log2 : Int) + e < 53 + ((971 : Nat) : Int) := by
    have hlt : (2 : ℚ) ^ ((m.log2 : Int) + e) < 2 ^ (53 + ((971 : Nat) : Int)) := by
      refine lt_of_le_of_lt ((zpow_log2_bounds hpos e).1.trans hvalue) ?_
      rw [zpow_add₀ (by norm_num)]
      exact mul_lt_mul_of_pos_right (by norm_num) (by positivity)
    exact (zpow_lt_zpow_iff_right₀ (by norm_num)).mp hlt
  rw [isInf_eq, hproduct]
  refine not_isInf_packed .exact (by omega) (by omega) fun hedge => ?_
  -- The last unit of the range is the unit of the shifted mantissa.
  have hshift : ((971 : Nat) : Int) = ((m.log2 - 52 : Nat) : Int) + e := by omega
  have hscaled : m ≤ 9007199254740990 * 2 ^ (m.log2 - 52) := by
    rw [hshift, zpow_add₀ (by norm_num), ← mul_assoc, zpow_natCast] at hvalue
    have hcast := le_of_mul_le_mul_right hvalue (by positivity)
    exact_mod_cast hcast
  have hdiv : m / 2 ^ (m.log2 - 52) ≤ 9007199254740990 :=
    Nat.div_le_of_le_mul (by rwa [Nat.mul_comm])
  omega

/-- **A product beyond the range is infinite.** -/
theorem isInf_mul (h : ((1797693134862319 * tenTo 293 : Nat) : ℚ) ≤ a * b) :
    (x * y).isInf = true :=
  isInf_mul_of_le hx hy ha hb (cast_twoTo 1024) (by decide +kernel) h

/-- **A product within the range is finite.** -/
theorem not_isInf_mul (h : a * b ≤ ((1797693134862311 * tenTo 293 : Nat) : ℚ)) :
    (x * y).isInf = false :=
  not_isInf_mul_of_le hx hy ha hb (cast_twoTo 971) (by decide +kernel) h

end Product

end LintSuite.Decimal
