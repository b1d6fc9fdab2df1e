import LintSuite.Proofs.BinaryAccuracy
import LintSuite.Proofs.JsonNumeral

/-!
# The range of a fraction

Which numbers can be read as fractions depends on how they are rounded: of a number with many digits
only the leading ones are taken up, and their product with a power of ten is out of range or not.  What
is left out and what is rounded is less than one part in ten to the fifteenth, so the numbers up to
`1.79769313486231e308` can be read (`isSome_fraction?`) and those from `1.79769313486232e308` cannot
(`fraction?_eq_none`).

Exponents are kept in a machine word, which a number with some thousand million digits would outgrow.

### Design decisions

**Rationals on one side, bits on the other.**  What a number says is a rational (`magnitude`), and what
is read of it are digits and a power of ten.  `leadingMagnitude_le` and `magnitude_le` compare the
two once, with an error for the digits that are left out.  From there on everything is about leading
digits, and the way a number was written plays no part.

**Three zones.**  Below the range numbers are read, beyond it they are refused, and in a narrow zone
between the two the rounding decides; the zone is bounded here and not described.  A refusal within the
format, which happens there, is exhibited where settings are read.

### What is load-bearing

`exponent_fits_or`: an exponent that a machine word does not hold is far beyond the range or far below
it.  It needs that the number has no more than some thousand million digits, since digits move the point
as an exponent does; that bound is a hypothesis of everything after it.
-/

namespace LintSuite.Json

open Decimal

/-! ### What a number says -/

namespace Numeral

/-- What an exponent says. -/
def exponentValue : Option (Bool × List Char) → Int
  | none => 0
  | some (below, ds) =>
    let e := Nat.ofDigitChars 10 ds 0
    if below then -e else e

/-- The digits on both sides of the point. -/
def digits (n : Numeral) : List Char := n.whole ++ n.places.getD []

/-- The digits as they stand around the point. -/
def significand (n : Numeral) : ℚ :=
  Nat.ofDigitChars 10 n.digits 0 * 10 ^ (-((n.places.getD []).length : Int))

/-- **The number that is meant**, without its sign. -/
def magnitude (n : Numeral) : ℚ := n.significand * 10 ^ exponentValue n.exponent

end Numeral

/-! ### Leading digits -/

theorem digit_le {d : Char} (h : d.isDigit = true) : d.toNat - '0'.toNat ≤ 9 := by
  obtain ⟨-, hnine⟩ := Char.isDigit_iff_toNat.mp h
  have hvalue : '9'.toNat = '0'.toNat + 9 := rfl
  omega

/-- Digits behind a value add less than one to it, once they stand behind the point. -/
theorem ofDigitChars_bounds (value : Nat) {ds : List Char} (h : ds.all Char.isDigit = true) :
    value * 10 ^ ds.length ≤ Nat.ofDigitChars 10 ds value ∧
      Nat.ofDigitChars 10 ds value < (value + 1) * 10 ^ ds.length := by
  induction ds generalizing value with
  | nil => simp
  | cons d ds ih =>
      rw [List.all_cons, Bool.and_eq_true] at h
      obtain ⟨hlow, hhigh⟩ := ih (10 * value + (d.toNat - '0'.toNat)) h.2
      have hdigit := digit_le h.1
      rw [Nat.ofDigitChars_cons, List.length_cons, Nat.pow_succ']
      constructor
      · refine le_trans ?_ hlow
        rw [← Nat.mul_assoc]
        exact Nat.mul_le_mul_right _ (by omega)
      · refine lt_of_lt_of_le hhigh ?_
        rw [← Nat.mul_assoc]
        exact Nat.mul_le_mul_right _ (by omega)

/-- **What is gathered is a part of the digits**, and eighteen of them at least if it is not all of
them. -/
theorem gather_spec (value : Nat) {ds : List Char} (h : ds.all Char.isDigit = true) :
    ∃ taken, ds = taken ++ (gather value ds).2 ∧
      (gather value ds).1 = Nat.ofDigitChars 10 taken value ∧
      ((gather value ds).2 = [] ∨ 10 ^ 18 ≤ (gather value ds).1) := by
  induction ds generalizing value with
  | nil => exact ⟨[], rfl, rfl, .inl rfl⟩
  | cons d ds ih =>
      rw [List.all_cons, Bool.and_eq_true] at h
      have hdigit := digit_le h.1
      rw [gather]
      split
      · obtain ⟨taken, hsplit, hvalue, hleft⟩ := ih (value * 10 + (d.toNat - '0'.toNat)) h.2
        refine ⟨d :: taken, by rw [List.cons_append, ← hsplit], ?_, hleft⟩
        rw [hvalue, Nat.ofDigitChars_cons, Nat.mul_comm]
      · next hmore =>
          refine ⟨[], rfl, rfl, .inr ?_⟩
          have hlimit : wordLimit = 18446744073709551616 := rfl
          omega

theorem gather_lt {value : Nat} (h : value < wordLimit) (ds : List Char) :
    (gather value ds).1 < wordLimit := by
  induction ds generalizing value with
  | nil => exact h
  | cons d ds ih =>
      rw [gather]
      split
      · next hmore => exact ih hmore
      · exact h

/-- **A number whose leading digits are given**, and the power of ten of the last one of them. -/
def Between (a : Nat) (e : Int) (x : ℚ) : Prop := (a : ℚ) * 10 ^ e ≤ x ∧ x < ((a : ℚ) + 1) * 10 ^ e

theorem between_self (a : Nat) (e : Int) : Between a e (a * 10 ^ e) := by
  have hpos : (0 : ℚ) < 10 ^ e := by positivity
  exact ⟨le_rfl, mul_lt_mul_of_pos_right (lt_add_one _) hpos⟩

/-- The first digits of several are the leading ones. -/
theorem between_ofDigitChars (value : Nat) {ds : List Char} (h : ds.all Char.isDigit = true)
    (e : Int) : Between value e (Nat.ofDigitChars 10 ds value * 10 ^ (e - ds.length)) := by
  obtain ⟨hlow, hhigh⟩ := ofDigitChars_bounds value h
  have hlow' : (value : ℚ) * 10 ^ ds.length ≤ Nat.ofDigitChars 10 ds value := by
    exact_mod_cast hlow
  have hhigh' : (Nat.ofDigitChars 10 ds value : ℚ) < (value + 1) * 10 ^ ds.length := by
    exact_mod_cast hhigh
  have hpower : (10 : ℚ) ^ e = 10 ^ ds.length * 10 ^ (e - ds.length) := by
    rw [← zpow_natCast, ← zpow_add₀ (by norm_num)]
    congr 1
    omega
  have hpos : (0 : ℚ) < 10 ^ (e - ds.length) := by positivity
  rw [Between, hpower, ← mul_assoc, ← mul_assoc]
  exact ⟨mul_le_mul_of_nonneg_right hlow' hpos.le, mul_lt_mul_of_pos_right hhigh' hpos⟩

/-- Numbers with the same eighteen leading digits hardly differ. -/
theorem Between.le_mul {a : Nat} {e : Int} {x y : ℚ} (hx : Between a e x) (hy : Between a e y)
    (ha : 10 ^ 18 ≤ a) : x ≤ y * (1 + 1 / 10 ^ 18) := by
  have ha' : (10 ^ 18 : ℚ) ≤ a := by exact_mod_cast ha
  have hlow := hy.1
  have hunit : (10 : ℚ) ^ e ≤ y * (1 / 10 ^ 18) := by
    calc (10 : ℚ) ^ e = 10 ^ 18 * 10 ^ e * (1 / 10 ^ 18) := by field_simp
      _ ≤ a * 10 ^ e * (1 / 10 ^ 18) := by gcongr
      _ ≤ y * (1 / 10 ^ 18) := by gcongr
  linarith [hx.2]

namespace Numeral

/-- The leading digits of a number, as a number. -/
def leadingValue (n : Numeral) : ℚ := n.leading.1 * 10 ^ n.leading.2

theorem isDigit_places (n : Numeral) : (n.places.getD []).all Char.isDigit = true := by
  cases hplaces : n.places with
  | none => rfl
  | some ds => exact (n.places_digits ds hplaces).2

/-- **How the digits of a number are taken up**: some of those in front of the point, and some of
those behind it. -/
theorem exists_leading_eq (n : Numeral) :
    ∃ first left more behind, n.whole = first ++ left ∧ n.places.getD [] = more ++ behind ∧
      n.leading = (Nat.ofDigitChars 10 more (Nat.ofDigitChars 10 first 0),
        (left.length : Int) - more.length) ∧
      (left = [] ∨ 10 ^ 18 ≤ Nat.ofDigitChars 10 first 0) ∧
      (behind = [] ∨ 10 ^ 18 ≤ Nat.ofDigitChars 10 more (Nat.ofDigitChars 10 first 0)) := by
  obtain ⟨first, hwhole, hvalue, hleft⟩ := gather_spec 0 n.whole_digits.2
  obtain ⟨more, hplaces, hall, hbehind⟩ :=
    gather_spec (gather 0 n.whole).1 n.isDigit_places
  have hlength : (n.places.getD []).length -
      (gather (gather 0 n.whole).1 (n.places.getD [])).2.length = more.length := by
    have htotal := congrArg List.length hplaces
    rw [List.length_append] at htotal
    omega
  have htaken : (gather (gather 0 n.whole).1 (n.places.getD [])).1 =
      Nat.ofDigitChars 10 more (Nat.ofDigitChars 10 first 0) := by rw [hall, hvalue]
  rw [hvalue] at hleft
  rw [htaken] at hbehind
  refine ⟨first, _, more, _, hwhole, hplaces, ?_, hleft, hbehind⟩
  simp only [leading, hlength, htaken]

/-- **The leading digits say the number**, or they are many. -/
theorem significand_eq_or_between (n : Numeral) :
    n.significand = n.leadingValue ∨
      ∃ a e, 10 ^ 18 ≤ a ∧ Between a e n.significand ∧ Between a e n.leadingValue := by
  obtain ⟨first, left, more, behind, hwhole, hplaces, hleading, hleft, hbehind⟩ :=
    n.exists_leading_eq
  have hall := n.isDigit_places
  have hwholeDigits := n.whole_digits.2
  have hdigits : Nat.ofDigitChars 10 n.digits 0 =
      Nat.ofDigitChars 10 (left ++ (more ++ behind)) (Nat.ofDigitChars 10 first 0) := by
    rw [digits, hwhole, hplaces, List.append_assoc, Nat.ofDigitChars_append]
  rw [hplaces, List.all_append, Bool.and_eq_true] at hall
  rw [hwhole, List.all_append, Bool.and_eq_true] at hwholeDigits
  rw [significand, leadingValue, hdigits, hleading, hplaces]
  obtain rfl | hmany := hleft
  · -- All digits in front of the point are leading ones.
    have hcopy : Nat.ofDigitChars 10 ([] ++ (more ++ behind)) (Nat.ofDigitChars 10 first 0) =
        Nat.ofDigitChars 10 behind (Nat.ofDigitChars 10 more (Nat.ofDigitChars 10 first 0)) := by
      rw [List.nil_append, Nat.ofDigitChars_append]
    have hunit : ((([] : List Char).length : Int) - more.length) = -(more.length : Int) := by simp
    have hlength : -((more ++ behind).length : Int) = -(more.length : Int) - behind.length := by
      rw [List.length_append]
      omega
    rw [hcopy, hunit, hlength]
    obtain rfl | hmany := hbehind
    · exact .inl (by simp)
    · exact .inr ⟨_, _, hmany, between_ofDigitChars _ hall.2 _, between_self _ _⟩
  · have hlength : -((more ++ behind).length : Int) =
        (left.length : Int) - (left ++ (more ++ behind)).length := by
      simp only [List.length_append]
      omega
    have hdigits : (left ++ (more ++ behind)).all Char.isDigit = true := by
      rw [List.all_append, List.all_append, hwholeDigits.2, hall.1, hall.2]
      rfl
    rw [hlength]
    exact .inr ⟨_, _, hmany, between_ofDigitChars _ hdigits _, between_ofDigitChars _ hall.1 _⟩

theorem leadingValue_nonneg (n : Numeral) : 0 ≤ n.leadingValue := by
  rw [leadingValue]
  positivity

/-- **The leading digits are close to the number.** -/
theorem leadingValue_le (n : Numeral) : n.leadingValue ≤ n.significand * (1 + 1 / 10 ^ 18) := by
  obtain heq | ⟨a, e, ha, hnumber, hleading⟩ := n.significand_eq_or_between
  · rw [heq]
    exact le_mul_of_one_le_right n.leadingValue_nonneg (by norm_num)
  · exact hleading.le_mul hnumber ha

theorem significand_le (n : Numeral) : n.significand ≤ n.leadingValue * (1 + 1 / 10 ^ 18) := by
  obtain heq | ⟨a, e, ha, hnumber, hleading⟩ := n.significand_eq_or_between
  · rw [heq]
    exact le_mul_of_one_le_right n.leadingValue_nonneg (by norm_num)
  · exact hnumber.le_mul hleading ha

end Numeral

/-! ### Scaling -/

theorem cast_tenTo (n : Nat) : ((tenTo n : Nat) : ℚ) = 10 ^ (n : Int) := by
  rw [zpow_natCast]
  exact Nat.cast_pow 10 n

/-- A power of ten is near what it stands for. -/
theorem isNear_power {e : Nat} (he : e ≤ 308) : IsNear roundingPart (power e) (tenTo e : Nat) := by
  have hle : 1 * tenTo e ≤ tenTo 308 := by
    rw [Nat.one_mul]
    exact tenTo_le_tenTo_iff.mpr he
  have hnear := isNear_nearest Nat.one_pos hle
  rwa [Nat.one_mul] at hnear

/-- Digits that fit are near what they stand for. -/
theorem isNear_digits {digits : Nat} (h : 0 < digits) (hfits : digits < wordLimit) :
    IsNear roundingPart (nearest false ⟨digits, 0⟩) digits := by
  have hlimit : wordLimit ≤ tenTo 308 := by decide +kernel
  have hle : digits * tenTo 0 ≤ tenTo 308 := by
    rw [tenTo_zero, Nat.mul_one]
    exact hfits.le.trans hlimit
  have hnear := isNear_nearest h hle
  rwa [tenTo_zero, Nat.mul_one] at hnear

/-- A quotient by a power of ten is not out of range. -/
theorem isSome_scaleBy_of_neg (x : Float) {e : Int} (h : e < 0) : (scaleBy x e).isSome = true := by
  fun_induction scaleBy x e with
  | case1 | case2 | case3 | case4 => omega
  | case5 | case6 => rfl
  | case7 x e _ hsmall _ ih => exact ih (by omega)

/-- **A value other than zero is scaled unless the result is out of range.** -/
theorem isSome_scaleBy_iff {x : Float} (hx : (x == 0.0) = false) (e : Int) :
    (scaleBy x e).isSome = true ↔
      e < 0 ∨ (e ≤ 308 ∧ (x * power e.toNat).isInf = false) := by
  by_cases hneg : e < 0
  · simp [hneg, isSome_scaleBy_of_neg x hneg]
  · have hge : 0 ≤ e := by omega
    rw [scaleBy, if_pos hge, hx]
    by_cases hlarge : 308 < e
    · have hnot : ¬e ≤ 308 := by omega
      simp [hlarge, hnot, hneg]
    · have hle : e ≤ 308 := by omega
      cases hinf : (x * power e.toNat).isInf <;> simp [hlarge, hle, hneg, hinf]

/-- Keeping the exponent in a machine word makes no difference. -/
theorem isSome_scaleBy_clampExponent {x : Float} (hx : (x == 0.0) = false) (e : Int) :
    (scaleBy x (clampExponent e)).isSome = (scaleBy x e).isSome := by
  rw [Bool.eq_iff_iff, isSome_scaleBy_iff hx, isSome_scaleBy_iff hx, clampExponent]
  by_cases hlow : e < -2147483648
  · have hclamp : max (-2147483648) (min 2147483647 e) < 0 := by omega
    have hneg : e < 0 := by omega
    simp only [hclamp, hneg, true_or]
  by_cases hhigh : 2147483647 < e
  · have hclamp : max (-2147483648) (min 2147483647 e) = 2147483647 := by omega
    rw [hclamp]
    constructor
    · rintro (hneg | ⟨hle, -⟩) <;> omega
    · rintro (hneg | ⟨hle, -⟩) <;> omega
  · have hclamp : max (-2147483648) (min 2147483647 e) = e := by omega
    rw [hclamp]

section Range

variable {digits : Nat}

/-- Powers of ten within the range have a small exponent. -/
theorem exponent_le_of_scaled_le (h : 0 < digits) {e : Int}
    (hrange : (digits : ℚ) * 10 ^ e ≤ (1797693134862311 * tenTo 293 : Nat)) : e ≤ 308 := by
  by_contra hlarge
  have hlimit : 1797693134862311 * tenTo 293 < tenTo 309 := by decide +kernel
  have hlimit' : ((1797693134862311 * tenTo 293 : Nat) : ℚ) < (tenTo 309 : Nat) := by
    exact_mod_cast hlimit
  have hone : (1 : ℚ) ≤ digits := by exact_mod_cast h
  have hpower : ((tenTo 309 : Nat) : ℚ) ≤ digits * 10 ^ e := by
    rw [cast_tenTo]
    exact (zpow_le_zpow_right₀ (by norm_num) (by omega)).trans
      (le_mul_of_one_le_left (by positivity) hone)
  linarith

/-- Digits that fit are scaled up to come beyond the range. -/
theorem exponent_nonneg_of_le_scaled (hfits : digits < wordLimit) {e : Int}
    (hrange : ((1797693134862319 * tenTo 293 : Nat) : ℚ) ≤ digits * 10 ^ e) : 0 ≤ e := by
  by_contra hneg
  have hlimit : wordLimit < 1797693134862319 * tenTo 293 := by decide +kernel
  have hsmall : (digits : ℚ) * 10 ^ e ≤ digits :=
    mul_le_of_le_one_right (by positivity) (zpow_le_one_of_nonpos₀ (by norm_num) (by omega))
  have hbeyond : 1797693134862319 * tenTo 293 ≤ digits := by exact_mod_cast hrange.trans hsmall
  omega

/-- **Digits that are scaled within the range.** -/
theorem isSome_scaleBy_of_le (h : 0 < digits) (hfits : digits < wordLimit) {e : Int}
    (hrange : (digits : ℚ) * 10 ^ e ≤ (1797693134862311 * tenTo 293 : Nat)) :
    (scaleBy (nearest false ⟨digits, 0⟩) e).isSome = true := by
  have hx := isNear_digits h hfits
  have hle := exponent_le_of_scaled_le h hrange
  rw [isSome_scaleBy_iff hx.ne_zero]
  by_cases hneg : e < 0
  · exact .inl hneg
  obtain ⟨k, rfl⟩ := Int.eq_ofNat_of_zero_le (Int.not_lt.mp hneg)
  refine .inr ⟨hle, ?_⟩
  exact not_isInf_mul hx (isNear_power (by omega)) (by exact_mod_cast h)
    (by exact_mod_cast tenTo_pos k) (by rw [cast_tenTo]; exact hrange)

/-- **Digits that are scaled beyond the range.** -/
theorem scaleBy_eq_none_of_le (h : 0 < digits) (hfits : digits < wordLimit) {e : Int}
    (hrange : ((1797693134862319 * tenTo 293 : Nat) : ℚ) ≤ digits * 10 ^ e) :
    scaleBy (nearest false ⟨digits, 0⟩) e = none := by
  have hx := isNear_digits h hfits
  obtain ⟨k, rfl⟩ := Int.eq_ofNat_of_zero_le (exponent_nonneg_of_le_scaled hfits hrange)
  rw [← Option.not_isSome_iff_eq_none, isSome_scaleBy_iff hx.ne_zero]
  rintro (hneg | ⟨hle, hfinite⟩)
  · omega
  · have hinf := isInf_mul hx (isNear_power (e := k) (by omega)) (by exact_mod_cast h)
      (by exact_mod_cast tenTo_pos k) (by rw [cast_tenTo]; exact hrange)
    rw [Int.toNat_natCast, hinf] at hfinite
    cases hfinite

end Range

theorem isSome_scaleBy_zero (e : Int) : (scaleBy (nearest false ⟨0, 0⟩) e).isSome = true := by
  have hzero : (nearest false ⟨0, 0⟩ == 0.0) = true := by decide +kernel
  by_cases hneg : e < 0
  · exact isSome_scaleBy_of_neg _ hneg
  · rw [scaleBy, if_pos (Int.not_lt.mp hneg), hzero]
    rfl

namespace Numeral

section Exponent

variable {digits : Nat} {unit : Int} {exponent : Option (Bool × List Char)}

/-- An exponent that fits is added to the power of ten of the digits. -/
theorem scaledBy?_of_fits (digits : Nat) (unit : Int)
    (hexponent : ∀ e ∈ exponent, Nat.ofDigitChars 10 e.2 0 ≤ exponentLimit) :
    ∃ e, (e = unit + exponentValue exponent ∨ e = clampExponent (unit + exponentValue exponent)) ∧
      scaledBy? digits unit exponent = scaleBy (nearest false ⟨digits, 0⟩) e := by
  cases exponent with
  | none =>
      refine ⟨unit, .inl ?_, rfl⟩
      rw [exponentValue, Int.add_zero]
  | some e =>
      obtain ⟨below, ds⟩ := e
      have hle := hexponent _ rfl
      refine ⟨_, .inr rfl, ?_⟩
      cases below with
      | false => simp [scaledBy?, exponentValue, hle]
      | true => simp [scaledBy?, exponentValue, hle, Int.sub_eq_add_neg]

theorem isSome_scaledBy?_of_fits (h : 0 < digits) (hfits : digits < wordLimit)
    (hexponent : ∀ e ∈ exponent, Nat.ofDigitChars 10 e.2 0 ≤ exponentLimit) :
    (scaledBy? digits unit exponent).isSome =
      (scaleBy (nearest false ⟨digits, 0⟩) (unit + exponentValue exponent)).isSome := by
  obtain ⟨e, rfl | rfl, hscaled⟩ := scaledBy?_of_fits digits unit hexponent
  · rw [hscaled]
  · rw [hscaled, isSome_scaleBy_clampExponent (isNear_digits h hfits).ne_zero]

theorem isSome_scaledBy?_zero : (scaledBy? 0 unit exponent).isSome = true := by
  cases exponent with
  | none => exact isSome_scaleBy_zero _
  | some e =>
      simp only [scaledBy?, ne_eq, not_true_eq_false, false_and, if_false]
      split
      · exact isSome_scaleBy_zero _
      · rfl

/-- An exponent does not fit if it is far beyond the range, or far below it. -/
theorem exponent_fits_or (exponent : Option (Bool × List Char)) :
    (∀ e ∈ exponent, Nat.ofDigitChars 10 e.2 0 ≤ exponentLimit) ∨
      ∃ below ds, exponent = some (below, ds) ∧ exponentLimit < Nat.ofDigitChars 10 ds 0 := by
  cases exponent with
  | none => exact .inl fun e he => by cases he
  | some e =>
      by_cases hle : Nat.ofDigitChars 10 e.2 0 ≤ exponentLimit
      · exact .inl fun _ he => by rwa [← Option.some.inj he]
      · exact .inr ⟨e.1, e.2, rfl, Nat.lt_of_not_le hle⟩

/-- **Digits within the range are read**, whatever the exponent is written like. -/
theorem isSome_scaledBy?_of_le (hfits : digits < wordLimit) (hunit : -2000000000 ≤ unit)
    (hrange : (digits : ℚ) * 10 ^ (unit + exponentValue exponent) ≤
      (1797693134862311 * tenTo 293 : Nat)) :
    (scaledBy? digits unit exponent).isSome = true := by
  obtain rfl | h := Nat.eq_zero_or_pos digits
  · exact isSome_scaledBy?_zero
  obtain hexponent | ⟨below, ds, rfl, hlarge⟩ := exponent_fits_or exponent
  · rw [isSome_scaledBy?_of_fits h hfits hexponent]
    exact isSome_scaleBy_of_le h hfits hrange
  · have hle := exponent_le_of_scaled_le h hrange
    have hlimit : exponentLimit = 2147483647 := rfl
    cases below with
    | true => simp [scaledBy?, Nat.not_le.mpr hlarge]
    | false =>
        have hvalue : exponentValue (some (false, ds)) = Nat.ofDigitChars 10 ds 0 := rfl
        omega

/-- **Digits beyond the range are refused.** -/
theorem scaledBy?_eq_none_of_le (hfits : digits < wordLimit) (hunit : unit ≤ 2000000000)
    (hrange : ((1797693134862319 * tenTo 293 : Nat) : ℚ) ≤
      digits * 10 ^ (unit + exponentValue exponent)) :
    scaledBy? digits unit exponent = none := by
  have h : 0 < digits := by
    rw [Nat.pos_iff_ne_zero]
    rintro rfl
    have hlimit : 0 < 1797693134862319 * tenTo 293 := Nat.mul_pos (by decide) (tenTo_pos _)
    have hlimit' : (0 : ℚ) < (1797693134862319 * tenTo 293 : Nat) := by exact_mod_cast hlimit
    rw [Nat.cast_zero, zero_mul] at hrange
    linarith
  obtain hexponent | ⟨below, ds, rfl, hlarge⟩ := exponent_fits_or exponent
  · rw [← Option.not_isSome_iff_eq_none, isSome_scaledBy?_of_fits h hfits hexponent,
      scaleBy_eq_none_of_le h hfits hrange]
    decide
  · have hge := exponent_nonneg_of_le_scaled hfits hrange
    have hlimit : exponentLimit = 2147483647 := rfl
    cases below with
    | true =>
        have hvalue : exponentValue (some (true, ds)) = -(Nat.ofDigitChars 10 ds 0 : Int) := rfl
        omega
    | false => simp [scaledBy?, Nat.not_le.mpr hlarge, h.ne']

end Exponent

theorem leading_lt (n : Numeral) : n.leading.1 < wordLimit :=
  gather_lt (gather_lt (by decide) n.whole) _

/-- The point moves by no more places than there are digits. -/
theorem natAbs_leading_le (n : Numeral) : n.leading.2.natAbs ≤ n.digits.length := by
  obtain ⟨first, left, more, behind, hwhole, hplaces, hleading, -, -⟩ := n.exists_leading_eq
  rw [hleading, digits, hwhole, hplaces]
  simp only [List.length_append]
  omega

/-- The leading digits of a number, with its exponent. -/
def leadingMagnitude (n : Numeral) : ℚ :=
  n.leading.1 * 10 ^ (n.leading.2 + exponentValue n.exponent)

theorem leadingMagnitude_eq (n : Numeral) :
    n.leadingMagnitude = n.leadingValue * 10 ^ exponentValue n.exponent := by
  rw [leadingMagnitude, leadingValue, zpow_add₀ (by norm_num), mul_assoc]

/-- **With its exponent too, a number is close to its leading digits.** -/
theorem leadingMagnitude_le (n : Numeral) :
    n.leadingMagnitude ≤ n.magnitude * (1 + 1 / 10 ^ 18) := by
  have hle := mul_le_mul_of_nonneg_right n.leadingValue_le
    (by positivity : (0 : ℚ) ≤ 10 ^ exponentValue n.exponent)
  rwa [← leadingMagnitude_eq, mul_right_comm] at hle

theorem magnitude_le (n : Numeral) :
    n.magnitude ≤ n.leadingMagnitude * (1 + 1 / 10 ^ 18) := by
  have hle := mul_le_mul_of_nonneg_right n.significand_le
    (by positivity : (0 : ℚ) ≤ 10 ^ exponentValue n.exponent)
  rwa [mul_right_comm, ← leadingMagnitude_eq] at hle

theorem magnitude_of_isWhole {n : Numeral} (h : n.IsWhole) : n.magnitude = n.wholeValue := by
  obtain ⟨hplaces, hexponent⟩ := h
  simp [magnitude, significand, digits, wholeValue, exponentValue, hplaces, hexponent]

theorem mul_one_add_le {a b : Nat} (h : a * (10 ^ 18 + 1) ≤ b * 10 ^ 18) :
    (a : ℚ) * (1 + 1 / 10 ^ 18) ≤ b := by
  have hcast : (a : ℚ) * (10 ^ 18 + 1) ≤ b * 10 ^ 18 := by exact_mod_cast h
  linarith

/-- **The numbers up to the end of the range can be read.** -/
theorem isSome_fraction? {n : Numeral} (hlength : n.digits.length ≤ 2000000000)
    (h : n.magnitude ≤ (179769313486231 * tenTo 294 : Nat)) : n.fraction?.isSome = true := by
  by_cases hfits : n.IsWhole ∧ n.wholeValue < wordLimit
  · rw [fraction?, if_pos hfits]
    rfl
  have hunit := n.natAbs_leading_le
  rw [fraction?, if_neg hfits, Option.isSome_map]
  refine isSome_scaledBy?_of_le n.leading_lt (by omega) ?_
  calc n.leadingMagnitude ≤ n.magnitude * (1 + 1 / 10 ^ 18) := n.leadingMagnitude_le
    _ ≤ (179769313486231 * tenTo 294 : Nat) * (1 + 1 / 10 ^ 18) := by gcongr
    _ ≤ (1797693134862311 * tenTo 293 : Nat) := mul_one_add_le (by decide +kernel)

/-- **The numbers beyond the range cannot be read.** -/
theorem fraction?_eq_none {n : Numeral} (hlength : n.digits.length ≤ 2000000000)
    (h : ((179769313486232 * tenTo 294 : Nat) : ℚ) ≤ n.magnitude) : n.fraction? = none := by
  have hunit := n.natAbs_leading_le
  have hleading : ((1797693134862319 * tenTo 293 : Nat) : ℚ) ≤ n.leadingMagnitude := by
    refine le_of_mul_le_mul_right ?_ (by norm_num : (0 : ℚ) < 1 + 1 / 10 ^ 18)
    calc ((1797693134862319 * tenTo 293 : Nat) : ℚ) * (1 + 1 / 10 ^ 18)
        ≤ (179769313486232 * tenTo 294 : Nat) := mul_one_add_le (by decide +kernel)
      _ ≤ n.magnitude := h
      _ ≤ n.leadingMagnitude * (1 + 1 / 10 ^ 18) := n.magnitude_le
  have hfits : ¬(n.IsWhole ∧ n.wholeValue < wordLimit) := by
    rintro ⟨hwhole, hlt⟩
    have hlimit : wordLimit ≤ 179769313486232 * tenTo 294 := by decide +kernel
    rw [magnitude_of_isWhole hwhole, Nat.cast_le] at h
    omega
  rw [fraction?, if_neg hfits, Option.map_eq_none_iff]
  exact scaledBy?_eq_none_of_le n.leading_lt (by omega) hleading

end Numeral

end LintSuite.Json
