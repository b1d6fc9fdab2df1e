import LintSuite.Proofs.Binary64
import LintSuite.Proofs.JsonSkip

/-!
# Reading a number

What a number means depends on how it is written.  A whole number without a sign may be read as one
(`Numeral.natural?`), and every number may be read as a fraction (`Numeral.fraction?`): a whole number
that fits into sixty-four bits is rounded once, and of any other the leading digits are taken up
(`Numeral.leading`) and scaled by one power of ten, which is refused if it leads out of range
(`Numeral.scaledBy?`).

A reader answers with a value and the rest of the text or with a fault (`Answers`).
`readNumber_answers` shows that the numbers of the grammar are read as what they mean; it goes along
the parts of a number, the digits in front of the point, those behind it and the exponent.

### Design decisions

**Meaning as it is computed.**  The meaning of a number as a fraction is defined by the steps that are
taken: which digits are taken up, by which power of ten they are scaled, when this is refused.  It is
exact, where any statement about real numbers could only be approximate; how near it is to the number
that is written is shown apart from this, and rests on it.

**Faults are not compared.**  `Answers` asks that a number without a meaning is refused, and not by
which fault.  Which one it is depends on how far the reader has come and has no bearing on what is
accepted.

### What is load-bearing

`readNumber_whole`: reading the first digits stops at the end of the digits or at the first one that no
longer fits, and the two cases are those of `Numeral.leading`.
-/

namespace LintSuite.Json

open Decimal

/-! ### What a number means -/

namespace Numeral

/-- Whether a number is written as a whole number. -/
def IsWhole (n : Numeral) : Prop := n.places = none ∧ n.exponent = none

instance (n : Numeral) : Decidable n.IsWhole := inferInstanceAs (Decidable (_ ∧ _))

/-- The value of the digits in front of the point. -/
def wholeValue (n : Numeral) : Nat := Nat.ofDigitChars 10 n.whole 0

/-- **A number as a whole number below a bound**, if it is written as one, without a sign. -/
def natural? (bound : Nat) (n : Numeral) : Option Nat :=
  if n.IsWhole ∧ n.negative = false ∧ n.wholeValue < bound then some n.wholeValue else none

/-- The leading digits, as many as fit into sixty-four bits, and the power of ten of the last one of
them, as far as the point tells it. -/
def leading (n : Numeral) : Nat × Int :=
  let whole := gather 0 n.whole
  let all := gather whole.1 (n.places.getD [])
  (all.1, (whole.2.length : Int) - (((n.places.getD []).length - all.2.length : Nat) : Int))

/-- Digits scaled by a power of ten that an exponent is added to.  Of an exponent that does not fit
into a machine word only its sign is told. -/
def scaledBy? (digits : Nat) (unit : Int) : Option (Bool × List Char) → Option Float
  | none => scaleBy (nearest false ⟨digits, 0⟩) unit
  | some (below, ds) =>
    let e := Nat.ofDigitChars 10 ds 0
    if e ≤ exponentLimit then
      scaleBy (nearest false ⟨digits, 0⟩) (clampExponent (if below then unit - e else unit + e))
    else if digits ≠ 0 ∧ below = false then none
    else some 0.0

/-- **A number as a fraction**: a whole number that fits into sixty-four bits is rounded once; of any
other the leading digits are rounded and then scaled, which may lead out of range. -/
def fraction? (n : Numeral) : Option Float :=
  if n.IsWhole ∧ n.wholeValue < wordLimit then some (nearest n.negative ⟨n.wholeValue, 0⟩)
  else (scaledBy? n.leading.1 n.leading.2 n.exponent).map (signed n.negative)

/-- A number as it is read. -/
def number? (n : Numeral) : Option Number :=
  if n.IsWhole ∧ n.wholeValue < wordLimit then some (wholeNumber n.negative n.wholeValue)
  else (scaledBy? n.leading.1 n.leading.2 n.exponent).map fun x => .fraction (signed n.negative x)

end Numeral

/-! ### Answers -/

/-- **How a reader answers**: with a value and the rest of the text, or with a fault. -/
def Answers {α : Type} (result : Except Fault (α × Cursor)) (answer : Option α)
    (rest : List Char) : Prop :=
  match answer with
  | some a => ∃ p, result = .ok (a, ⟨rest, p⟩)
  | none => ∃ fault, result = .error fault

theorem answers_some {α : Type} (a : α) (rest : List Char) (p : Position) :
    Answers (.ok (a, ⟨rest, p⟩)) (some a) rest := ⟨p, rfl⟩

theorem answers_none {α : Type} (fault : Fault) (rest : List Char) :
    Answers (.error fault : Except Fault (α × Cursor)) none rest := ⟨fault, rfl⟩

theorem fractionOf_answers (negative : Bool) (digits : Nat) (e : Int) (rest : List Char)
    (p : Position) :
    Answers (fractionOf negative digits e ⟨rest, p⟩)
      ((scaleBy (nearest false ⟨digits, 0⟩) e).map fun x => .fraction (signed negative x))
      rest := by
  rw [fractionOf]
  cases scaleBy (nearest false ⟨digits, 0⟩) e with
  | some x => exact answers_some _ rest p
  | none => exact answers_none _ rest

/-! ### Exponents -/

/-- The digits of an exponent are gathered to their value, if that is within the limit. -/
theorem gatherExponent_of_le {value : Nat} {ds : List Char}
    (h : Nat.ofDigitChars 10 ds value ≤ exponentLimit) :
    gatherExponent value ds = .ok (Nat.ofDigitChars 10 ds value) := by
  induction ds generalizing value with
  | nil => rfl
  | cons d ds ih =>
      rw [Nat.ofDigitChars_cons, Nat.mul_comm] at h ⊢
      rw [gatherExponent, if_pos ((Settings.le_ofDigitChars _ _).trans h), ih h]

theorem gatherExponent_of_lt {value : Nat} {ds : List Char} (hvalue : value ≤ exponentLimit)
    (h : exponentLimit < Nat.ofDigitChars 10 ds value) :
    ∃ left, gatherExponent value ds = .error left := by
  induction ds generalizing value with
  | nil => exact absurd hvalue (Nat.not_le.mpr h)
  | cons d ds ih =>
      rw [Nat.ofDigitChars_cons, Nat.mul_comm] at h
      rw [gatherExponent]
      split
      · next hmore => exact ih hmore h
      · exact ⟨ds, rfl⟩

/-- **An exponent is read**, behind its sign. -/
theorem readExponentDigits_answers {ds : List Char} (hds : AreDigits ds) (negative : Bool)
    (digits : Nat) (unit : Int) (below : Bool) {rest : List Char} (hrest : EndsDigits rest)
    (p : Position) :
    Answers (readExponentDigits negative digits unit below ⟨ds ++ rest, p⟩)
      ((Numeral.scaledBy? digits unit (some (below, ds))).map
        fun x => .fraction (signed negative x)) rest := by
  have hrun := digitRun_append hds.2 hrest p
  have hpast : (⟨ds ++ rest, p⟩ : Cursor).past ds = ⟨rest, p.afterAll ds⟩ := Cursor.past_append ds
  obtain ⟨d, others, rfl, hd⟩ := hds.exists_cons
  rw [List.cons_append] at hrun hpast ⊢
  simp only [readExponentDigits, hd, hrun, Bool.not_true, Bool.false_eq_true, if_false,
    Numeral.scaledBy?]
  by_cases hle : Nat.ofDigitChars 10 (d :: others) 0 ≤ exponentLimit
  · simp only [gatherExponent_of_le hle, hpast, hle, if_true]
    exact fractionOf_answers _ _ _ _ _
  · obtain ⟨left, hgather⟩ := gatherExponent_of_lt (Nat.zero_le _) (Nat.lt_of_not_le hle)
    simp only [hgather, hpast, hle, if_false]
    by_cases hlarge : digits ≠ 0 ∧ below = false
    · have hguard : (digits != 0 && !below) = true := by simp [hlarge]
      rw [if_pos hguard, if_pos hlarge]
      exact answers_none _ _
    · have hguard : ¬(digits != 0 && !below) = true := by simpa using hlarge
      rw [if_neg hguard, if_neg hlarge]
      exact answers_some _ _ _

/-- **What may follow the digits of a fraction is read.** -/
theorem readFractionEnd_answers {e : Option (Bool × List Char)} {text : List Char}
    (h : IsExponent e text) (hdigits : ∀ x ∈ e, AreDigits x.2) (negative : Bool) (digits : Nat)
    (unit : Int) {rest : List Char} (hrest : EndsNumber rest) (p : Position) :
    Answers (readFractionEnd negative digits unit ⟨text ++ rest, p⟩)
      ((Numeral.scaledBy? digits unit e).map fun x => .fraction (signed negative x)) rest := by
  obtain ⟨rfl, rfl⟩ | ⟨below, ds, mark, tail, rfl, hds, rfl, hmark, hsign⟩ :=
    h.absent_or_marked hdigits
  · cases rest with
    | nil => exact fractionOf_answers _ _ _ _ _
    | cons c rest =>
        obtain ⟨-, -, he, hE⟩ := hrest c rfl
        rw [List.nil_append, readFractionEnd_cons, if_neg (by simp [he, hE])]
        exact fractionOf_answers _ _ _ _ _
  · obtain ⟨q, hq⟩ := hsign rest (p.after mark)
    rw [List.cons_append, readFractionEnd_cons, if_pos hmark, readExponent_eq, hq]
    exact readExponentDigits_answers hds _ _ _ _ hrest.endsDigits _

/-! ### Digits in front of the point -/

/-- Digits are gathered to their end only if their value fits. -/
theorem gather_left_eq_nil_iff {value : Nat} (hvalue : value < wordLimit) (ds : List Char) :
    (gather value ds).2 = [] ↔ Nat.ofDigitChars 10 ds value < wordLimit := by
  refine ⟨fun hleft => ?_, fun hfits => by rw [Settings.gather_eq hfits]⟩
  induction ds generalizing value with
  | nil => exact hvalue
  | cons d ds ih =>
      rw [gather] at hleft
      rw [Nat.ofDigitChars_cons, Nat.mul_comm]
      split at hleft
      · next hmore => exact ih hmore hleft
      · cases hleft

/-- **The first digits of a number are read** as far as they go. -/
theorem readNumber_whole (n : Numeral) (negative : Bool) {rest : List Char}
    (hrest : EndsDigits rest) (p : Position) :
    readNumber negative ⟨n.whole ++ rest, p⟩ =
      readNumberEnd negative (gather 0 n.whole).1 (gather 0 n.whole).2
        ⟨rest, p.afterAll n.whole⟩ := by
  obtain ⟨d, ds, hwhole, hd⟩ := n.whole_digits.exists_cons
  by_cases hzero : d = '0'
  · have honly : n.whole = ['0'] := n.whole_zero (by rw [hwhole, hzero]; rfl)
    rw [honly, List.singleton_append, readNumber_cons, hrest.head?_isDigit]
    rfl
  · have hrun := digitRun_append n.whole_digits.2 hrest p
    have hpast : (⟨n.whole ++ rest, p⟩ : Cursor).past n.whole = ⟨rest, p.afterAll n.whole⟩ :=
      Cursor.past_append n.whole
    rw [hwhole] at hrun hpast ⊢
    rw [List.cons_append] at hrun hpast ⊢
    rw [readNumber_cons, hd, if_neg (by decide), if_neg hzero, hrun, hpast]

theorem Numeral.leading_of_none {n : Numeral} (h : n.places = none) :
    n.leading = ((gather 0 n.whole).1, ((gather 0 n.whole).2.length : Int)) := by
  simp [leading, h, gather]

theorem Numeral.leading_of_some {n : Numeral} {ds : List Char} (h : n.places = some ds) :
    n.leading = ((gather (gather 0 n.whole).1 ds).1,
      ((gather 0 n.whole).2.length : Int) -
        ((ds.length - (gather (gather 0 n.whole).1 ds).2.length : Nat) : Int)) := by
  simp [leading, h]

theorem Numeral.number?_of_fits {n : Numeral} (h : n.IsWhole ∧ n.wholeValue < wordLimit) :
    n.number? = some (wholeNumber n.negative n.wholeValue) := if_pos h

theorem Numeral.number?_of_not_fits {n : Numeral} (h : ¬(n.IsWhole ∧ n.wholeValue < wordLimit)) :
    n.number? = (scaledBy? n.leading.1 n.leading.2 n.exponent).map
      fun x => .fraction (signed n.negative x) := if_neg h

theorem readNumberEnd_of_endsNumber {rest : List Char} (hrest : EndsNumber rest)
    (negative : Bool) (value : Nat) (left : List Char) (p : Position) :
    readNumberEnd negative value left ⟨rest, p⟩ =
      if left.isEmpty then .ok (wholeNumber negative value, ⟨rest, p⟩)
      else fractionOf negative value left.length ⟨rest, p⟩ := by
  cases rest with
  | nil => rfl
  | cons c rest =>
      obtain ⟨-, hpoint, he, hE⟩ := hrest c rfl
      rw [readNumberEnd_cons, if_neg hpoint, if_neg (by simp [he, hE])]

/-- Without a point, the digits of a number and its exponent are read. -/
theorem readNumberEnd_exponent (n : Numeral) (hplaces : n.places = none) {exponent : List Char}
    (hexponent : IsExponent n.exponent exponent) {rest : List Char} (hrest : EndsNumber rest)
    (p : Position) :
    Answers (readNumberEnd n.negative (gather 0 n.whole).1 (gather 0 n.whole).2
      ⟨exponent ++ rest, p⟩) n.number? rest := by
  have hleading := Numeral.leading_of_none hplaces
  obtain ⟨hnone, rfl⟩ | ⟨below, ds, mark, tail, hsome, hds, rfl, hmark, hsign⟩ :=
    hexponent.absent_or_marked n.exponent_digits
  · rw [List.nil_append, readNumberEnd_of_endsNumber hrest]
    have hzero : 0 < wordLimit := by decide
    have hleft := gather_left_eq_nil_iff hzero n.whole
    by_cases hfits : n.wholeValue < wordLimit
    · have hgather : gather 0 n.whole = (n.wholeValue, []) := Settings.gather_eq hfits
      rw [Numeral.number?_of_fits ⟨⟨hplaces, hnone⟩, hfits⟩, hgather]
      exact answers_some _ _ _
    · have hmore : (gather 0 n.whole).2.isEmpty = false := by
        rw [List.isEmpty_eq_false_iff]
        exact fun hnil => hfits (hleft.mp hnil)
      rw [Numeral.number?_of_not_fits fun hn => hfits hn.2, hleading, hnone, hmore]
      exact fractionOf_answers _ _ _ _ _
  · have hwhole : ¬(n.IsWhole ∧ n.wholeValue < wordLimit) := by
      rintro ⟨⟨-, hnone⟩, -⟩
      rw [hsome] at hnone
      cases hnone
    have hpoint : mark ≠ '.' := by
      obtain rfl | rfl := hmark <;> decide
    obtain ⟨q, hq⟩ := hsign rest (p.after mark)
    rw [Numeral.number?_of_not_fits hwhole, hleading, hsome, List.cons_append,
      readNumberEnd_cons, if_neg hpoint, if_pos hmark, readExponent_eq, hq]
    exact readExponentDigits_answers hds _ _ _ _ hrest.endsDigits _

/-- **A number is read**, behind its sign. -/
theorem readNumber_answers (n : Numeral) {exponent : List Char}
    (hexponent : IsExponent n.exponent exponent) {rest : List Char} (hrest : EndsNumber rest)
    (p : Position) :
    Answers (readNumber n.negative ⟨n.whole ++ (placesText n.places ++ (exponent ++ rest)), p⟩)
      n.number? rest := by
  have hbehind := hexponent.endsDigits hrest.endsDigits
  rw [readNumber_whole n n.negative (endsDigits_placesText n.places hbehind)]
  cases hplaces : n.places with
  | none => exact readNumberEnd_exponent n hplaces hexponent hrest _
  | some ds =>
      have hds := n.places_digits ds hplaces
      have hrun := digitRun_append hds.2 hbehind
      have hnonempty : ds.isEmpty = false := by
        rw [List.isEmpty_eq_false_iff]
        exact hds.1
      have hwhole : ¬(n.IsWhole ∧ n.wholeValue < wordLimit) := by
        rintro ⟨⟨hnone, -⟩, -⟩
        rw [hplaces] at hnone
        cases hnone
      rw [Numeral.number?_of_not_fits hwhole, Numeral.leading_of_some hplaces, placesText,
        List.cons_append, readNumberEnd_cons, if_pos rfl]
      simp only [readPlaces, hrun, hnonempty, Bool.false_eq_true, if_false, Cursor.past_append]
      exact readFractionEnd_answers hexponent n.exponent_digits _ _ _ hrest _

/-! ### Numbers by their type -/

/-- A whole number that is read is the fraction that is nearest to it. -/
theorem fractionOfNumber_wholeNumber (negative : Bool) {value : Nat} (h : value < wordLimit) :
    Settings.fractionOfNumber (wholeNumber negative value) = nearest negative ⟨value, 0⟩ := by
  have hback : (UInt64.ofNat value).toNat = value := UInt64.toNat_ofNat_of_lt' h
  cases negative with
  | false => simp [wholeNumber, Settings.fractionOfNumber, hback]
  | true =>
      by_cases hlarge : (value = 0 || 0x8000000000000000 < value) = true
      · simp [wholeNumber, hlarge, Settings.fractionOfNumber, signed, nearest_negative]
      · simp [wholeNumber, hlarge, Settings.fractionOfNumber, hback]

/-- **A number that is read as a fraction** is the fraction that it means. -/
theorem Numeral.map_number? (n : Numeral) :
    n.number?.map Settings.fractionOfNumber = n.fraction? := by
  by_cases hfits : n.IsWhole ∧ n.wholeValue < wordLimit
  · rw [number?_of_fits hfits, fraction?, if_pos hfits, Option.map_some,
      fractionOfNumber_wholeNumber _ hfits.2]
  · rw [number?_of_not_fits hfits, fraction?, if_neg hfits, Option.map_map]
    rfl

end LintSuite.Json
