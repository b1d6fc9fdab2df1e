import LintSuite.Proofs.BinaryProducts

/-!
# The accuracy of products and quotients

A product and a quotient of two numbers of the format are rounded once.  Away from zero, where the
format has numbers of all its bits, the rounding changes a number by no more than one part in two to
the fifty-second (`roundWithAccuracy_near`), so the product and the quotient of numbers near two others
are near what the two make (`isNear_mul`, `isNear_div`).

### Design decisions

**One rounding lemma.**  The product and the quotient of the format are both a whole mantissa with an
exponent, rounded by the same steps; for a quotient the mantissa has already lost less than one unit
(`divCore_eq`).  `roundWithAccuracy_near` takes such a mantissa and says how far the result is from it.
Both operations are instances, and the difference between them is what goes in.

**Away from zero.**  Next to zero the format has fewer bits, and a relative error says nothing there.
The hypotheses that keep a result away from it are lower bounds on magnitudes (`le_log2_add`,
`le_exponent_sub`), which whoever scales a number can show by comparing exponents.

### What is load-bearing

A mantissa that grows by a bit in the rounding is shifted once more and loses nothing
(`exists_shifted_again`), since it is a power of two then.  Without this, two roundings would have to
be accounted for.
-/

namespace LintSuite.Decimal

open Float.Model (Format UnpackedFloat)
open Float.Model.UnpackedFloat

/-- **Packing a number with all bits of its mantissa** loses nothing within the range. -/
theorem unpack_pack_of_lt {m : Nat} {e : Int} (hlow : 2 ^ 52 ≤ m) (hhigh : m < 2 ^ 53)
    (hsmall : -1074 ≤ e) (hlarge : e < 972) (h : 0 < m) :
    unpack Format.binary64 (pack Format.binary64 (.finite .positive m e h)) =
      .finite .positive m e h := by
  have hbias : (Format.binary64.exponentBias : Int) = 1023 := rfl
  have hguard : ¬2 ^ Format.binary64.exponentBits ≤ (e + 1023 + (52 : Nat)).toNat + 1 := by
    change ¬2048 ≤ (e + 1023 + (52 : Nat)).toNat + 1
    omega
  have hlog : m.log2 + 1 = Format.binary64.mantissaBits := by
    change m.log2 + 1 = 53
    rw [(Nat.log2_eq_iff h.ne').mpr ⟨hlow, hhigh⟩]
  rw [pack.eq_4]
  simp only [hbias]
  rw [if_neg hguard, if_pos hlog]
  have hfield : (e + 1023 + (52 : Nat)).toNat = (e + 1074).toNat + 1 := by omega
  have hmantissa : BitVec.ofNat 52 m = BitVec.ofNat 52 (m - 2 ^ 52) := by
    apply BitVec.eq_of_toNat_eq
    rw [BitVec.toNat_ofNat, BitVec.toNat_ofNat]
    omega
  have hbound : (e + 1074).toNat + 1 < 2047 := by omega
  obtain ⟨_, hunpack⟩ := unpack_of_fields hbound hlow hhigh
    (b := packComponents Format.binary64 .positive (BitVec.ofNat 11 (e + 1023 + (52 : Nat)).toNat)
      (BitVec.ofNat 52 m))
    (by rw [unpackSign_packComponents]; rfl)
    (by rw [unpackExponent_packComponents, hfield])
    (by rw [unpackMantissa_packComponents, hmantissa])
  have hexponent : ((e + 1074).toNat : Int) - 1074 = e := by omega
  simp only [hexponent] at hunpack
  exact hunpack

/-- A mantissa is shifted to fifty-three bits. -/
theorem shifted_bounds {m : Nat} (hm : 52 ≤ m.log2) :
    2 ^ 52 ≤ m / 2 ^ (m.log2 - 52) ∧ m / 2 ^ (m.log2 - 52) < 2 ^ 53 := by
  have hpos : m ≠ 0 := by
    rintro rfl
    simp at hm
  have hhigh : 53 + (m.log2 - 52) = m.log2 + 1 := by omega
  constructor
  · rw [Nat.le_div_iff_mul_le (by positivity), ← Nat.pow_add, Nat.add_sub_cancel' hm]
    exact Nat.log2_self_le hpos
  · rw [Nat.div_lt_iff_lt_mul (by positivity), ← Nat.pow_add, hhigh]
    exact Nat.lt_log2_self

/-- A shift leaves out less than one unit. -/
theorem div_two_pow_bounds (m k : Nat) (e : Int) :
    ((m / 2 ^ k : Nat) : ℚ) * 2 ^ (e + k) ≤ m * 2 ^ e ∧
      (m : ℚ) * 2 ^ e ≤ (((m / 2 ^ k : Nat) : ℚ) + 1) * 2 ^ (e + k) := by
  have hlow : m / 2 ^ k * 2 ^ k ≤ m := Nat.div_mul_le_self m _
  have hhigh : m ≤ (m / 2 ^ k + 1) * 2 ^ k := by
    rw [Nat.mul_comm]
    exact (Nat.lt_mul_div_succ m (by positivity)).le
  have hlow' : ((m / 2 ^ k : Nat) : ℚ) * 2 ^ k ≤ m := by exact_mod_cast hlow
  have hhigh' : (m : ℚ) ≤ (((m / 2 ^ k : Nat) : ℚ) + 1) * 2 ^ k := by exact_mod_cast hhigh
  have hpos : (0 : ℚ) < 2 ^ e := by positivity
  rw [Int.add_comm, zpow_add₀ (by norm_num), zpow_natCast, ← mul_assoc, ← mul_assoc]
  exact ⟨mul_le_mul_of_nonneg_right hlow' hpos.le, mul_le_mul_of_nonneg_right hhigh' hpos.le⟩

/-- A mantissa that has grown to fifty-four bits is shifted once more, and loses nothing. -/
theorem exists_shifted_again {r : Nat} {e : Int} (hlow : 2 ^ 52 ≤ r) (hhigh : r ≤ 2 ^ 53)
    (he : -1074 ≤ e) {j : Nat}
    (hj : j = (max ((r.log2 : Int) + 1 + e - 53) (-1074) - e).toNat) :
    2 ^ 52 ≤ r / 2 ^ j ∧ r / 2 ^ j < 2 ^ 53 ∧
      ((r / 2 ^ j : Nat) : ℚ) * 2 ^ (e + j) = r * 2 ^ e := by
  obtain hlt | rfl := Nat.lt_or_eq_of_le hhigh
  · have hlog : r.log2 = 52 := (Nat.log2_eq_iff (by omega)).mpr ⟨hlow, hlt⟩
    have hzero : j = 0 := by omega
    subst hzero
    simpa using ⟨hlow, hlt⟩
  · have hlog : (2 ^ 53).log2 = 53 := Nat.log2_two_pow
    have hone : j = 1 := by omega
    subst hone
    refine ⟨by decide, by decide, ?_⟩
    rw [Nat.cast_one, zpow_add_one₀ (by norm_num)]
    norm_num
    ring

/-- **The rounding of a number away from zero** changes it by no more than its last unit. -/
theorem roundWithAccuracy_near {m : Nat} {e : Int} (acc : Accuracy) (hm : 52 ≤ m.log2)
    (hsmall : -1022 ≤ (m.log2 : Int) + e) :
    ∃ n f h, roundWithAccuracy Format.binary64 .positive m e acc = .finite .positive n f h ∧
      2 ^ 52 ≤ n ∧ n < 2 ^ 53 ∧ -1074 ≤ f ∧
      (m : ℚ) * 2 ^ e * (1 - roundingPart) ≤ n * 2 ^ f ∧
      n * 2 ^ f ≤ (m : ℚ) * 2 ^ e * (1 + roundingPart) := by
  obtain ⟨k, r, j, hk, hlow, hhigh, hj, hround⟩ := roundWithAccuracy_eq m e acc
  have hk' : k = m.log2 - 52 := by omega
  obtain ⟨hqlow, hqhigh⟩ := shifted_bounds hm
  rw [← hk'] at hqlow hqhigh
  obtain ⟨hbelow, habove⟩ := div_two_pow_bounds m k e
  have hunit : (2 : ℚ) ^ (e + k) ≤ m * 2 ^ e * roundingPart := by
    have hq : ((2 ^ 52 : Nat) : ℚ) ≤ (m / 2 ^ k : Nat) := by exact_mod_cast hqlow
    have hle := (mul_le_mul_of_nonneg_right hq
      (by positivity : (0 : ℚ) ≤ 2 ^ (e + k))).trans hbelow
    push_cast at hle
    rw [roundingPart]
    linarith
  have hrlow : ((m / 2 ^ k : Nat) : ℚ) * 2 ^ (e + k) ≤ r * 2 ^ (e + k) := by gcongr
  have hrhigh : (r : ℚ) * 2 ^ (e + k) ≤ ((m / 2 ^ k + 1 : Nat) : ℚ) * 2 ^ (e + k) := by gcongr
  push_cast at hrhigh
  have hstart : -1074 ≤ e + k := by omega
  obtain ⟨hnlow, hnhigh, hvalue⟩ := exists_shifted_again (hqlow.trans hlow)
    (hhigh.trans hqhigh) hstart hj
  obtain ⟨hzero, -⟩ | ⟨hpos, hround⟩ := hround
  · omega
  · refine ⟨r / 2 ^ j, e + k + j, hpos, hround, hnlow, hnhigh, by omega, ?_, ?_⟩ <;> rw [hvalue]
    · linarith
    · linarith

/-! ### Products and quotients -/

/-- What is rounded and packed is near what it was, if it is finite. -/
theorem isNear_of_eq_packed {x : Float} {m : Nat} {e : Int} {acc : Accuracy}
    (hx : x.toModel.unpack = packed m e acc) (hfinite : x.isInf = false) (hm : 52 ≤ m.log2)
    (hsmall : -1022 ≤ (m.log2 : Int) + e) : IsNear roundingPart x (m * 2 ^ e) := by
  obtain ⟨n, f, hpos, hround, hnlow, hnhigh, hf, hlow, hhigh⟩ :=
    roundWithAccuracy_near acc hm hsmall
  rw [packed, hround] at hx
  have hlarge : f < 972 := by
    rw [isInf_eq, hx, isInf_unpack_pack, decide_eq_false_iff_not] at hfinite
    omega
  rw [unpack_pack_of_lt hnlow hnhigh hf hlarge] at hx
  exact ⟨n, f, hpos, hx, hnlow, hnhigh, hlow, hhigh⟩

/-- A number near one is near any other that is not far from it. -/
theorem IsNear.of_le {part part' : ℚ} {x : Float} {r s : ℚ} (h : IsNear part x r)
    (hlow : s * (1 - part') ≤ r * (1 - part)) (hhigh : r * (1 + part) ≤ s * (1 + part')) :
    IsNear part' x s := by
  obtain ⟨m, e, hpos, hx, hmlow, hmhigh, hbelow, habove⟩ := h
  exact ⟨m, e, hpos, hx, hmlow, hmhigh, hlow.trans hbelow, habove.trans hhigh⟩

/-- The order of magnitude of a number that is not small. -/
theorem le_log2_add {m : Nat} (hm : 0 < m) {e k : Int} (h : (2 : ℚ) ^ k ≤ m * 2 ^ e) :
    k ≤ (m.log2 : Int) + e := by
  have hlt := lt_of_le_of_lt h (zpow_log2_bounds hm e).2
  have hexponent := (zpow_lt_zpow_iff_right₀ (by norm_num : (1 : ℚ) < 2)).mp hlt
  omega

/-- A quotient of mantissas is taken fifty-three bits behind the point. -/
theorem divCore_eq {m n : Nat} (hmlow : 2 ^ 52 ≤ m) (hmhigh : m < 2 ^ 53) (hnlow : 2 ^ 52 ≤ n)
    (hnhigh : n < 2 ^ 53) {e f : Int} (hsmall : -1021 ≤ e - f) :
    ∃ acc, divCore Format.binary64 m e n f = (m * 2 ^ 53 / n, e - f - 53, acc) := by
  have hmlog : m.log2 = 52 := (Nat.log2_eq_iff (by omega)).mpr ⟨hmlow, hmhigh⟩
  have hnlog : n.log2 = 52 := (Nat.log2_eq_iff (by omega)).mpr ⟨hnlow, hnhigh⟩
  have htarget : min (e - f) (Format.binary64.targetExponent
      (Float.Model.totalExponent m e - Float.Model.totalExponent n f)) = e - f - 53 := by
    change min (e - f) (max ((m.log2 : Int) + 1 + e - ((n.log2 : Int) + 1 + f) - 53) (-1074)) = _
    omega
  have hshift : (e - f - (e - f - 53)).toNat = 53 := by omega
  simp only [divCore, htarget, hshift, Nat.shiftLeft_eq]
  exact ⟨_, rfl⟩

/-- The mantissa of a quotient leaves out less than one unit. -/
theorem quotient_bounds {m n : Nat} (hmlow : 2 ^ 52 ≤ m) (hnlow : 2 ^ 52 ≤ n) (hnhigh : n < 2 ^ 53) :
    2 ^ 52 ≤ m * 2 ^ 53 / n ∧
      (m : ℚ) * 2 ^ 53 / n * (1 - roundingPart) ≤ (m * 2 ^ 53 / n : Nat) ∧
      ((m * 2 ^ 53 / n : Nat) : ℚ) ≤ m * 2 ^ 53 / n := by
  have hn : 0 < n := by omega
  have hn' : (0 : ℚ) < n := by exact_mod_cast hn
  have hlow : 2 ^ 52 ≤ m * 2 ^ 53 / n := by
    rw [Nat.le_div_iff_mul_le hn]
    exact Nat.mul_le_mul hmlow hnhigh.le
  have hfloor : ((m * 2 ^ 53 / n : Nat) : ℚ) ≤ m * 2 ^ 53 / n := by
    have hle := @Nat.cast_div_le ℚ _ _ _ (m * 2 ^ 53) n
    push_cast at hle
    exact hle
  have hceil : (m : ℚ) * 2 ^ 53 / n ≤ (m * 2 ^ 53 / n : Nat) + 1 := by
    rw [div_le_iff₀ hn']
    exact_mod_cast (Nat.lt_mul_of_div_lt (Nat.lt_succ_self (m * 2 ^ 53 / n)) hn).le
  have hunit : (1 : ℚ) ≤ m * 2 ^ 53 / n * roundingPart := by
    have hlow' : ((2 ^ 52 : Nat) : ℚ) ≤ (m * 2 ^ 53 / n : Nat) := by exact_mod_cast hlow
    push_cast at hlow'
    rw [roundingPart]
    linarith
  exact ⟨hlow, by linarith, hfloor⟩

/-- The quotient of two rationals near others is near their quotient. -/
theorem quotient_near {a b v w : ℚ} (ha : 0 < a) (hb : 0 < b)
    (hv : a * (1 - roundingPart) ≤ v ∧ v ≤ a * (1 + roundingPart))
    (hw : b * (1 - roundingPart) ≤ w ∧ w ≤ b * (1 + roundingPart)) :
    a / b * (1 - 1 / 2 ^ 51) ≤ v / w ∧ v / w ≤ a / b * (1 + 5 / 2 ^ 53) := by
  have hshrink : 0 < 1 - roundingPart := by norm_num [roundingPart]
  have hwpos : 0 < w := (mul_pos hb hshrink).trans_le hw.1
  have hab : 0 < a * b := mul_pos ha hb
  rw [div_mul_eq_mul_div, div_mul_eq_mul_div, div_le_div_iff₀ hb hwpos, div_le_div_iff₀ hwpos hb]
  constructor
  · calc a * (1 - 1 / 2 ^ 51) * w
        ≤ a * (1 - 1 / 2 ^ 51) * (b * (1 + roundingPart)) := by
          gcongr
          exact hw.2
      _ ≤ a * (1 - roundingPart) * b := by
          norm_num [roundingPart]
          linarith
      _ ≤ v * b := by
          gcongr
          exact hv.1
  · calc v * b ≤ a * (1 + roundingPart) * b := by
          gcongr
          exact hv.2
      _ ≤ a * (1 + 5 / 2 ^ 53) * (b * (1 - roundingPart)) := by
          norm_num [roundingPart]
          linarith
      _ ≤ a * (1 + 5 / 2 ^ 53) * w := by
          gcongr
          exact hw.1

/-- A part of a number that is at least half of it has nearly its order of magnitude. -/
theorem two_zpow_pred_le {k : Int} {r part : ℚ} (h : (2 : ℚ) ^ k ≤ r) (hpart : 1 / 2 ≤ part) :
    (2 : ℚ) ^ (k - 1) ≤ r * part := by
  have hpos : (0 : ℚ) < 2 ^ k := by positivity
  calc (2 : ℚ) ^ (k - 1) = 2 ^ k * (1 / 2) := by rw [zpow_sub_one₀ (by norm_num), one_div]
    _ ≤ r * part := mul_le_mul h hpart (by norm_num) (hpos.le.trans h)

/-- The exponents of a quotient that is not small are not far apart. -/
theorem le_exponent_sub {m n : Nat} (hmhigh : m < 2 ^ 53) (hnlow : 2 ^ 52 ≤ n) {e f k : Int}
    (h : (2 : ℚ) ^ k ≤ m * 2 ^ e / (n * 2 ^ f)) : k ≤ e - f + 1 := by
  have hmhigh' : (m : ℚ) ≤ 2 ^ 53 := by exact_mod_cast hmhigh.le
  have hnlow' : (2 ^ 52 : ℚ) ≤ n := by exact_mod_cast hnlow
  have hlarge : (2 : ℚ) ^ k ≤ 2 ^ (e - f + 1) := by
    calc (2 : ℚ) ^ k ≤ m * 2 ^ e / (n * 2 ^ f) := h
      _ ≤ 2 ^ 53 * 2 ^ e / (2 ^ 52 * 2 ^ f) := by gcongr
      _ = 2 ^ (e - f + 1) := by
        rw [zpow_add_one₀ (by norm_num), zpow_sub₀ (by norm_num)]
        field_simp
  exact (zpow_le_zpow_iff_right₀ (by norm_num)).mp hlarge

section Scaled

variable {x y : Float} {a b : ℚ} (hx : IsNear roundingPart x a) (hy : IsNear roundingPart y b)
  (ha : 0 < a) (hb : 0 < b)

include hx hy ha hb

/-- **A product that is finite is near the product.** -/
theorem isNear_mul (hone : 1 ≤ a * b) (hfinite : (x * y).isInf = false) :
    IsNear (1 / 2 ^ 50) (x * y) (a * b) := by
  obtain ⟨m, e, hproduct, hm, hlow, hhigh⟩ := exists_mul_eq hx hy ha hb
  have hpos : 0 < m := by omega
  have hlog : 104 ≤ m.log2 := (Nat.le_log2 hpos.ne').mpr hm
  have hsmall : (2 : ℚ) ^ (-1 : Int) ≤ m * 2 ^ e := by
    refine le_trans ?_ hlow
    norm_num [roundingPart]
    linarith
  have hlarge := le_log2_add hpos hsmall
  have hnear := isNear_of_eq_packed hproduct hfinite (by omega) (by omega)
  refine hnear.of_le ?_ ?_
  · have hshrink : 0 ≤ 1 - roundingPart := by norm_num [roundingPart]
    calc a * b * (1 - 1 / 2 ^ 50)
        ≤ a * b * (1 - roundingPart) ^ 2 * (1 - roundingPart) := by
          norm_num [roundingPart]
          linarith
      _ ≤ m * 2 ^ e * (1 - roundingPart) := by gcongr
  · have hgrow : 0 ≤ 1 + roundingPart := by norm_num [roundingPart]
    calc m * 2 ^ e * (1 + roundingPart)
        ≤ a * b * (1 + roundingPart) ^ 2 * (1 + roundingPart) := by gcongr
      _ ≤ a * b * (1 + 1 / 2 ^ 50) := by
          norm_num [roundingPart]
          linarith

/-- What numbers near two others make: a quotient of their mantissas, near the quotient. -/
theorem exists_div_eq (hrange : (2 : ℚ) ^ (-1000 : Int) ≤ a / b) :
    ∃ (q : Nat) (e : Int) (acc : Accuracy), (x / y).toModel.unpack = packed q e acc ∧
      2 ^ 52 ≤ q ∧ a / b * (1 - 1 / 2 ^ 51) * (1 - roundingPart) ≤ q * 2 ^ e ∧
      q * 2 ^ e ≤ a / b * (1 + 5 / 2 ^ 53) := by
  obtain ⟨m, e, hm, hxm, hmlow, hmhigh, hxnear⟩ := hx
  obtain ⟨n, f, hn, hyn, hnlow, hnhigh, hynear⟩ := hy
  obtain ⟨hlow, hhigh⟩ := quotient_near ha hb hxnear hynear
  have hvalue : (m : ℚ) * 2 ^ e / (n * 2 ^ f) = m * 2 ^ 53 / n * 2 ^ (e - f - 53) := by
    rw [zpow_sub₀ (by norm_num), zpow_sub₀ (by norm_num)]
    norm_num
    field_simp
  have hsmall : -1021 ≤ e - f := by
    have hexponent :=
      le_exponent_sub hmhigh hnlow ((two_zpow_pred_le hrange (by norm_num)).trans hlow)
    omega
  obtain ⟨acc, hcore⟩ := divCore_eq hmlow hmhigh hnlow hnhigh hsmall
  have hquotient : (x / y).toModel.unpack = packed (m * 2 ^ 53 / n) (e - f - 53) acc := by
    change unpack Format.binary64 (pack Format.binary64
      (div Format.binary64 x.toModel.unpack y.toModel.unpack)) = _
    rw [hxm, hyn]
    simp only [div, hcore]
    rfl
  obtain ⟨hqlow, hqbelow, hqabove⟩ := quotient_bounds hmlow hnlow hnhigh
  have hshrink : 0 ≤ 1 - roundingPart := by norm_num [roundingPart]
  refine ⟨_, _, acc, hquotient, hqlow, ?_, ?_⟩
  · calc a / b * (1 - 1 / 2 ^ 51) * (1 - roundingPart)
        ≤ m * 2 ^ e / (n * 2 ^ f) * (1 - roundingPart) := by gcongr
      _ = m * 2 ^ 53 / n * (1 - roundingPart) * 2 ^ (e - f - 53) := by
          rw [hvalue, mul_right_comm]
      _ ≤ (m * 2 ^ 53 / n : Nat) * 2 ^ (e - f - 53) := by gcongr
  · calc ((m * 2 ^ 53 / n : Nat) : ℚ) * 2 ^ (e - f - 53)
        ≤ m * 2 ^ 53 / n * 2 ^ (e - f - 53) := by gcongr
      _ = m * 2 ^ e / (n * 2 ^ f) := hvalue.symm
      _ ≤ a / b * (1 + 5 / 2 ^ 53) := hhigh

/-- **A quotient that is neither small nor large is near the quotient.** -/
theorem isNear_div (hrange : (2 : ℚ) ^ (-1000 : Int) ≤ a / b)
    {k : Int} (hk : k ≤ 1000) (hlimit : a / b ≤ 2 ^ k) : IsNear (1 / 2 ^ 50) (x / y) (a / b) := by
  obtain ⟨q, e, acc, hquotient, hq, hlow, hhigh⟩ := exists_div_eq hx hy ha hb hrange
  have hpos : 0 < q := by omega
  have hlog : 52 ≤ q.log2 := (Nat.le_log2 hpos.ne').mpr hq
  have hsmall : (2 : ℚ) ^ (-1000 - 1 : Int) ≤ q * 2 ^ e := by
    rw [mul_assoc] at hlow
    exact (two_zpow_pred_le hrange (by norm_num [roundingPart])).trans hlow
  have hlarge := le_log2_add hpos hsmall
  have hfinite : (x / y).isInf = false := by
    have hbelow : (2 : ℚ) ^ ((q.log2 : Int) + e) ≤ 2 ^ (k + 1) := by
      calc (2 : ℚ) ^ ((q.log2 : Int) + e) ≤ q * 2 ^ e := (zpow_log2_bounds hpos e).1
        _ ≤ a / b * (1 + 5 / 2 ^ 53) := hhigh
        _ ≤ 2 ^ k * 2 := mul_le_mul hlimit (by norm_num) (by norm_num) (by positivity)
        _ = 2 ^ (k + 1) := (zpow_add_one₀ (by norm_num) _).symm
    have hexponent := (zpow_le_zpow_iff_right₀ (by norm_num : (1 : ℚ) < 2)).mp hbelow
    rw [isInf_eq, hquotient]
    exact not_isInf_packed acc hlog (by omega) (by omega)
  have hnear := isNear_of_eq_packed hquotient hfinite hlog (by omega)
  have hab : 0 < a / b := div_pos ha hb
  refine hnear.of_le ?_ ?_
  · have hshrink : 0 ≤ 1 - roundingPart := by norm_num [roundingPart]
    calc a / b * (1 - 1 / 2 ^ 50)
        ≤ a / b * (1 - 1 / 2 ^ 51) * (1 - roundingPart) * (1 - roundingPart) := by
          norm_num [roundingPart]
          linarith
      _ ≤ q * 2 ^ e * (1 - roundingPart) := by gcongr
  · have hgrow : 0 ≤ 1 + roundingPart := by norm_num [roundingPart]
    calc q * 2 ^ e * (1 + roundingPart)
        ≤ a / b * (1 + 5 / 2 ^ 53) * (1 + roundingPart) := by gcongr
      _ ≤ a / b * (1 + 1 / 2 ^ 50) := by
          norm_num [roundingPart]
          linarith

end Scaled

end LintSuite.Decimal
