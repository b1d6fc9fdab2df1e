import LintSuite.Proofs.NumeralRange

/-!
# The accuracy of a fraction

A number that is read as a fraction is near what it says: the leading digits are rounded, and so are
the power of ten and what the two make, which changes the number by less than one part in two to the
forty-ninth (`fraction?_near`).  Numbers that are next to zero are left aside: the format has fewer
bits there, and what is below its least unit is read as zero.

### Design decisions

**One bound for three errors.**  Leading digits are rounded to the format, the power of ten is rounded,
and the product or quotient of the two is rounded again; digits that were left out come on top.  Each is
less than one part in two to the fifty-second, and one part in two to the forty-ninth has room for all
of them.  The bound is not the best one, but it holds for every way in which a number can be written.

**Numbers next to zero are excluded by magnitude**, with a bound far above the least number with all
bits.  There a division may be needed twice, and the intermediate result must stay away from the end of
the range; `lt_exponent_of_le_scaled` shows that it is not needed above the bound.
-/

namespace LintSuite.Json

open Decimal

section Scaled

variable {digits : Nat} (h : 0 < digits) (hfits : digits < wordLimit)

include hfits in
/-- Digits that fit are not scaled below the powers of ten that one step takes. -/
theorem lt_exponent_of_le_scaled {e : Int} (hrange : (10 : ℚ) ^ (-288 : Int) ≤ digits * 10 ^ e) :
    -308 < e := by
  have hlimit : wordLimit < 10 ^ 20 := by decide
  have hdigits : (digits : ℚ) < 10 ^ (20 : Int) := by exact_mod_cast hfits.trans hlimit
  have hpos : (0 : ℚ) < 10 ^ e := by positivity
  have hlt : (10 : ℚ) ^ (-288 : Int) < 10 ^ (20 + e) := by
    rw [zpow_add₀ (by norm_num)]
    exact hrange.trans_lt (mul_lt_mul_of_pos_right hdigits hpos)
  have hexponent := (zpow_lt_zpow_iff_right₀ (by norm_num : (1 : ℚ) < 10)).mp hlt
  omega

/-- The powers of ten that one step takes are far from the least numbers of the format. -/
theorem two_zpow_le_ten_zpow : (2 : ℚ) ^ (-1000 : Int) ≤ 10 ^ (-288 : Int) := by
  have hle : tenTo 288 ≤ twoTo 1000 := by decide +kernel
  have hle' : ((tenTo 288 : Nat) : ℚ) ≤ (twoTo 1000 : Nat) := by exact_mod_cast hle
  have hpos : (0 : ℚ) < (tenTo 288 : Nat) := by exact_mod_cast tenTo_pos 288
  have hinv := inv_anti₀ hpos hle'
  rw [cast_tenTo, cast_twoTo, ← zpow_neg, ← zpow_neg] at hinv
  exact hinv

include h hfits

/-- **Digits that are scaled down** are near what they stand for. -/
theorem isNear_div_power {k : Nat} (hk : k ≤ 308)
    (hrange : (10 : ℚ) ^ (-288 : Int) ≤ digits * 10 ^ (-(k : Int))) :
    IsNear (1 / 2 ^ 50) (nearest false ⟨digits, 0⟩ / power k) (digits * 10 ^ (-(k : Int))) := by
  have hpos : (0 : ℚ) < digits := by exact_mod_cast h
  have hten : (1 : ℚ) ≤ (tenTo k : Nat) := by exact_mod_cast tenTo_pos k
  have hlimit : (digits : ℚ) ≤ 2 ^ (64 : Int) := by
    have hle : digits ≤ 2 ^ 64 := hfits.le
    exact_mod_cast hle
  have hquotient : (digits : ℚ) * 10 ^ (-(k : Int)) = digits / (tenTo k : Nat) := by
    rw [cast_tenTo, zpow_neg, div_eq_mul_inv]
  rw [hquotient] at hrange ⊢
  exact isNear_div (isNear_digits h hfits) (isNear_power hk) hpos (by linarith)
    (two_zpow_le_ten_zpow.trans hrange) (by decide : (64 : Int) ≤ 1000)
    ((div_le_self hpos.le hten).trans hlimit)

/-- **Digits that are scaled** are near what they stand for. -/
theorem isNear_scaleBy {e : Int} (hrange : (10 : ℚ) ^ (-288 : Int) ≤ digits * 10 ^ e) {y : Float}
    (hy : scaleBy (nearest false ⟨digits, 0⟩) e = some y) :
    IsNear (1 / 2 ^ 50) y (digits * 10 ^ e) := by
  have hx := isNear_digits h hfits
  have hpos : (0 : ℚ) < digits := by exact_mod_cast h
  have hsmall := lt_exponent_of_le_scaled hfits hrange
  by_cases hneg : e < 0
  · obtain ⟨k, rfl⟩ := Int.exists_eq_neg_ofNat hneg.le
    have hge : ¬0 ≤ -(k : Int) := by omega
    have hstep : -308 ≤ -(k : Int) := by omega
    rw [scaleBy, if_neg hge, if_pos hstep, Option.some.injEq, Int.neg_neg, Int.toNat_natCast] at hy
    rw [← hy]
    exact isNear_div_power h hfits (by omega) hrange
  · obtain ⟨k, rfl⟩ := Int.eq_ofNat_of_zero_le (Int.not_lt.mp hneg)
    have hone : (1 : ℚ) ≤ digits * (tenTo k : Nat) := by
      exact_mod_cast Nat.mul_pos h (tenTo_pos k)
    rw [scaleBy, if_pos (Int.natCast_nonneg k), hx.ne_zero] at hy
    by_cases hlarge : 308 < (k : Int)
    · simp [hlarge] at hy
    · have hk : k ≤ 308 := by omega
      cases hinf : (nearest false ⟨digits, 0⟩ * power k).isInf with
      | true => simp [hlarge, hinf] at hy
      | false =>
          simp only [Bool.false_eq_true, if_false, hlarge, Int.toNat_natCast, hinf,
            Option.some.injEq] at hy
          rw [← hy, ← cast_tenTo]
          exact isNear_mul hx (isNear_power hk) hpos (by exact_mod_cast tenTo_pos k) hone hinf

end Scaled

namespace Numeral

/-- **Digits with an exponent** are near what they stand for. -/
theorem isNear_scaledBy? {digits : Nat} (hfits : digits < wordLimit) {unit : Int}
    (hunit : unit ≤ 2000000000) {exponent : Option (Bool × List Char)}
    (hrange : (10 : ℚ) ^ (-288 : Int) ≤ digits * 10 ^ (unit + exponentValue exponent)) {y : Float}
    (hy : scaledBy? digits unit exponent = some y) :
    IsNear (1 / 2 ^ 50) y (digits * 10 ^ (unit + exponentValue exponent)) := by
  have h : 0 < digits := by
    rw [Nat.pos_iff_ne_zero]
    rintro rfl
    have hpos : (0 : ℚ) < 10 ^ (-288 : Int) := by positivity
    rw [Nat.cast_zero, zero_mul] at hrange
    linarith
  have hsmall := lt_exponent_of_le_scaled hfits hrange
  have hx := (isNear_digits h hfits).ne_zero
  obtain hexponent | ⟨below, ds, rfl, hlarge⟩ := exponent_fits_or exponent
  · obtain ⟨e, he, hscaled⟩ := scaledBy?_of_fits digits unit hexponent
    rw [hscaled] at hy
    obtain rfl | rfl := he
    · exact isNear_scaleBy h hfits hrange hy
    · have hsome : (scaleBy (nearest false ⟨digits, 0⟩)
          (unit + exponentValue exponent)).isSome = true := by
        rw [← isSome_scaleBy_clampExponent hx, hy]
        rfl
      have hle := (isSome_scaleBy_iff hx _).mp hsome
      have hclamp : clampExponent (unit + exponentValue exponent) =
          unit + exponentValue exponent := by
        rw [clampExponent]
        omega
      rw [hclamp] at hy
      exact isNear_scaleBy h hfits hrange hy
  · have hlimit : exponentLimit = 2147483647 := rfl
    cases below with
    | true =>
        have hvalue : exponentValue (some (true, ds)) = -(Nat.ofDigitChars 10 ds 0 : Int) := rfl
        omega
    | false => simp [scaledBy?, Nat.not_le.mpr hlarge, h.ne'] at hy

/-- A whole number that fits is rounded once, and its sign is put in front of it. -/
theorem nearest_near_of_fits {n : Numeral} (hfits : n.IsWhole ∧ n.wholeValue < wordLimit)
    (hpos : 0 < n.wholeValue) :
    ∃ y, nearest n.negative ⟨n.wholeValue, 0⟩ = signed n.negative y ∧
      IsNear (1 / 2 ^ 49) y n.magnitude := by
  rw [magnitude_of_isWhole hfits.1]
  refine ⟨nearest false ⟨n.wholeValue, 0⟩, ?_, (isNear_digits hpos hfits.2).of_le ?_ ?_⟩
  · cases n.negative with
    | false => rfl
    | true => exact nearest_negative _
  · rw [roundingPart]
    linarith
  · rw [roundingPart]
    linarith

/-- The leading digits of a number that is not next to zero are not next to it either. -/
theorem le_leadingMagnitude {n : Numeral} (hrange : (10 : ℚ) ^ (-280 : Int) ≤ n.magnitude) :
    (10 : ℚ) ^ (-288 : Int) ≤ n.leadingMagnitude := by
  have hsplit : (10 : ℚ) ^ (-280 : Int) = 10 ^ (-288 : Int) * 10 ^ (8 : Int) :=
    zpow_add₀ (by norm_num) (-288) 8
  have height : (1 : ℚ) + 1 / 10 ^ 18 ≤ 10 ^ (8 : Int) := by norm_num
  have hnonneg : 0 ≤ n.leadingMagnitude := by
    rw [leadingMagnitude]
    positivity
  refine le_of_mul_le_mul_right ?_ (by positivity : (0 : ℚ) < 10 ^ (8 : Int))
  calc (10 : ℚ) ^ (-288 : Int) * 10 ^ (8 : Int) ≤ n.magnitude := hsplit ▸ hrange
    _ ≤ n.leadingMagnitude * (1 + 1 / 10 ^ 18) := n.magnitude_le
    _ ≤ n.leadingMagnitude * 10 ^ (8 : Int) := mul_le_mul_of_nonneg_left height hnonneg

/-- **A number that is read is near what it says**, with the sign in front of it. -/
theorem fraction?_near {n : Numeral} (hlength : n.digits.length ≤ 2000000000)
    (hrange : (10 : ℚ) ^ (-280 : Int) ≤ n.magnitude) {x : Float} (hx : n.fraction? = some x) :
    ∃ y, x = signed n.negative y ∧ IsNear (1 / 2 ^ 49) y n.magnitude := by
  by_cases hfits : n.IsWhole ∧ n.wholeValue < wordLimit
  · have hpos : 0 < n.magnitude := lt_of_lt_of_le (by positivity) hrange
    rw [magnitude_of_isWhole hfits.1, Nat.cast_pos] at hpos
    rw [fraction?, if_pos hfits, Option.some.injEq] at hx
    rw [← hx]
    exact nearest_near_of_fits hfits hpos
  · have hunit := n.natAbs_leading_le
    rw [fraction?, if_neg hfits, Option.map_eq_some_iff] at hx
    obtain ⟨y, hy, rfl⟩ := hx
    have habove := n.leadingMagnitude_le
    have hbelow := n.magnitude_le
    have hnear := isNear_scaledBy? n.leading_lt (by omega) (le_leadingMagnitude hrange) hy
    refine ⟨y, rfl, hnear.of_le ?_ ?_⟩
    · change _ ≤ n.leadingMagnitude * _
      linarith
    · change n.leadingMagnitude * _ ≤ _
      linarith

/-- **How a number is read as a fraction.** -/
structure ReadsFraction (n : Numeral) : Prop where
  /-- Every number is read up to the end of the range, which is near `1.797693134862316e308`. -/
  within : n.magnitude ≤ (179769313486231 * tenTo 294 : Nat) → n.fraction?.isSome
  /-- No number is read beyond it. -/
  beyond : ((179769313486232 * tenTo 294 : Nat) : ℚ) ≤ n.magnitude → n.fraction? = none
  /-- A number that is read, and is not next to zero, is near what it says. -/
  near : ∀ x, n.fraction? = some x → (10 : ℚ) ^ (-280 : Int) ≤ n.magnitude →
    ∃ y, x = signed n.negative y ∧ IsNear (1 / 2 ^ 49) y n.magnitude

theorem readsFraction {n : Numeral} (hlength : n.digits.length ≤ 2000000000) :
    n.ReadsFraction where
  within := isSome_fraction? hlength
  beyond := fraction?_eq_none hlength
  near := fun _ hx hrange => fraction?_near hlength hrange hx

end Numeral

end LintSuite.Json
