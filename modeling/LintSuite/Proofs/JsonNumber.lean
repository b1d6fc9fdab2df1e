import Mathlib.Data.List.TakeWhile
import Mathlib.Tactic
import LintSuite.Settings.Reader

/-!
# Reading a value wherever it stands

A reader takes a text for a value (`Takes`) if it reads it to its end wherever the text stands, as
long as a comma or a line feed follows.

A number is read by several readers that hand on what is left.  None of them looks at what stands
around its text, except for the character that ends it: a number that is read to the end of a text
of its own is read in the same way in any place (`IsLocal`).  Each part of the reading is local
because the parts it hands on to are (`fractionOf_isLocal` up to `readFloat_isLocal`), so nothing
need be known of what the parts compute.

The digits of a whole number are read as the number (`takes_digitsOf`): the first digit is no zero
unless it is the only one, and while digits are gathered the value stays within the limit.

### Design decisions

**Locality instead of a specification.**  A reader of a number is not described here, but compared with
itself: `IsLocal` says that what it makes of a text standing alone it makes of the text anywhere.  That
is what a round trip needs, where the text is one that the writer has produced, and it can be proved
without knowing how a fraction is rounded.

**What may follow.**  A number ends where something else begins.  `EndsValue` allows just what the
writer puts behind a value, so that the proofs have two characters to look at.

### What is load-bearing

`IsLocal.past_digits` and `IsLocal.next`, which carry locality from the rest of a number to the
number.  They follow the shape of the readers, in which every step goes past some digits or one sign
and hands on the rest.
-/

namespace LintSuite.Json

open Decimal

/-! ### Cursors -/

section Cursors

variable {c : Char} {rest : List Char} {p : Position}

@[simp] theorem Position.afterAll_nil (p : Position) : p.afterAll [] = p := rfl

@[simp] theorem Position.afterAll_cons (p : Position) (c : Char) (cs : List Char) :
    p.afterAll (c :: cs) = (p.after c).afterAll cs := rfl

@[simp] theorem Position.afterAll_append (p : Position) (cs ds : List Char) :
    p.afterAll (cs ++ ds) = (p.afterAll cs).afterAll ds :=
  List.foldl_append

@[simp] theorem Cursor.next_cons : (⟨c :: rest, p⟩ : Cursor).next = ⟨rest, p.after c⟩ := rfl

@[simp] theorem Cursor.past_append (cs : List Char) :
    (⟨cs ++ rest, p⟩ : Cursor).past cs = ⟨rest, p.afterAll cs⟩ := by
  rw [Cursor.past, List.drop_left]

theorem Cursor.skipSpace_of_isSpace (h : isSpace c = true) :
    (⟨c :: rest, p⟩ : Cursor).skipSpace = (⟨rest, p.after c⟩ : Cursor).skipSpace := by
  simp [Cursor.skipSpace, Cursor.past, List.takeWhile_cons_of_pos h]

theorem Cursor.skipSpace_of_not_isSpace (h : isSpace c = false) :
    (⟨c :: rest, p⟩ : Cursor).skipSpace = ⟨c :: rest, p⟩ := by
  have hblanks : (c :: rest).takeWhile isSpace = [] := List.takeWhile_cons_of_neg (by simp [h])
  rw [Cursor.skipSpace, hblanks]
  rfl

end Cursors

/-! ### Reading in place -/

/-- A reader of values. -/
abbrev Reader (α : Type) := Cursor → Except Fault (α × Cursor)

/-- What may follow a value that something follows: a comma or a line feed comes first. -/
def EndsValue (rest : List Char) : Prop :=
  ∃ c tail, rest = c :: tail ∧ (c = ',' ∨ c = '\n')

/-- **A reader takes a text for a value**: it reads the text to its end, wherever that stands. -/
def Takes {α : Type} (reader : Reader α) (text : List Char) (a : α) : Prop :=
  ∀ rest p, EndsValue rest → reader ⟨text ++ rest, p⟩ = .ok (a, ⟨rest, p.afterAll text⟩)

/-- **A local reader**: what it reads to the end of a text of its own it takes for the same value
anywhere. -/
def IsLocal {α : Type} (reader : Reader α) : Prop :=
  ∀ ⦃text p a behind⦄, reader ⟨text, p⟩ = .ok (a, behind) → behind.rest = [] →
    Takes reader text a

/-- No digit follows a value. -/
theorem takeWhile_isDigit_append (text : List Char) {rest : List Char} (h : EndsValue rest) :
    (text ++ rest).takeWhile Char.isDigit = text.takeWhile Char.isDigit := by
  have hrest : rest.takeWhile Char.isDigit = [] := by
    obtain ⟨c, tail, rfl, rfl | rfl⟩ := h <;> rfl
  rw [List.takeWhile_append]
  split
  · next hall =>
    rw [hrest, List.append_nil]
    exact ((List.takeWhile_prefix _).eq_of_length hall).symm
  · rfl

theorem head?_isDigit_append (text : List Char) {rest : List Char} (h : EndsValue rest) :
    ((text ++ rest).head?.map Char.isDigit).getD false =
      (text.head?.map Char.isDigit).getD false := by
  cases text with
  | nil => obtain ⟨c, tail, rfl, rfl | rfl⟩ := h <;> rfl
  | cons c text => rfl

/-- The cursor behind the digits that come next. -/
theorem past_digits (text rest : List Char) (p : Position) :
    (⟨text ++ rest, p⟩ : Cursor).past (text.takeWhile Char.isDigit) =
      ⟨text.dropWhile Char.isDigit ++ rest, p.afterAll (text.takeWhile Char.isDigit)⟩ := by
  have htext : text ++ rest =
      text.takeWhile Char.isDigit ++ (text.dropWhile Char.isDigit ++ rest) := by
    rw [← List.append_assoc, List.takeWhile_append_dropWhile]
  rw [htext, Cursor.past_append]

theorem isLocal_ok {α : Type} (a : α) : IsLocal fun cur => .ok (a, cur) := by
  intro text p b behind hread hend rest q _
  cases hread
  cases hend
  rfl

/-- What a local reader reads behind the digits that come first, it reads behind them anywhere. -/
theorem IsLocal.past_digits {α : Type} {reader : Reader α} (h : IsLocal reader)
    {text : List Char} {p : Position} {a : α} {behind : Cursor}
    (hread : reader ((⟨text, p⟩ : Cursor).past (text.takeWhile Char.isDigit)) = .ok (a, behind))
    (hend : behind.rest = []) {rest : List Char} (q : Position) (hrest : EndsValue rest) :
    reader ((⟨text ++ rest, q⟩ : Cursor).past (text.takeWhile Char.isDigit)) =
      .ok (a, ⟨rest, q.afterAll text⟩) := by
  have halone := Json.past_digits text [] p
  rw [List.append_nil, List.append_nil] at halone
  rw [halone] at hread
  rw [Json.past_digits, h hread hend rest _ hrest, ← Position.afterAll_append,
    List.takeWhile_append_dropWhile]

/-- What a local reader reads behind the first character, it reads behind it anywhere. -/
theorem IsLocal.next {α : Type} {reader : Reader α} (h : IsLocal reader) {c : Char}
    {text : List Char} {p : Position} {a : α} {behind : Cursor}
    (hread : reader ⟨text, p⟩ = .ok (a, behind)) (hend : behind.rest = []) {rest : List Char}
    (q : Position) (hrest : EndsValue rest) :
    reader ⟨text ++ rest, q.after c⟩ = .ok (a, ⟨rest, q.afterAll (c :: text)⟩) :=
  h hread hend rest _ hrest

theorem fractionOf_isLocal (negative : Bool) (digits : Nat) (e : Int) :
    IsLocal (fractionOf negative digits e) := by
  intro text p a behind hread hend rest q _
  simp only [fractionOf] at hread ⊢
  cases hscale : scaleBy (nearest false ⟨digits, 0⟩) e with
  | none =>
      rw [hscale] at hread
      cases hread
  | some x =>
      rw [hscale] at hread
      cases hread
      cases hend
      rfl

/-- What `readExponent` does behind a sign. -/
def readExponentDigits (negative : Bool) (digits : Nat) (start : Int) (below : Bool) :
    Reader Number := fun cur =>
  match cur.rest with
  | [] => cur.fault .endInValue
  | c :: _ =>
    if !c.isDigit then .error ⟨.malformedNumber, cur.position.afterByte c⟩
    else
      let run := digitRun cur
      match gatherExponent 0 run with
      | .ok e =>
        fractionOf negative digits (clampExponent (if below then start - e else start + e))
          (cur.past run)
      | .error left =>
        if digits != 0 && !below then
          (cur.past (run.take (run.length - left.length))).fault .numberTooLarge
        else .ok (.fraction (signed negative 0.0), cur.past run)

/-- The sign of an exponent, and the cursor behind it. -/
def exponentSign (cur : Cursor) : Bool × Cursor :=
  match cur.rest with
  | '+' :: _ => (false, cur.next)
  | '-' :: _ => (true, cur.next)
  | _ => (false, cur)

theorem readExponent_eq (negative : Bool) (digits : Nat) (start : Int) (cur : Cursor) :
    readExponent negative digits start cur =
      readExponentDigits negative digits start (exponentSign cur).1 (exponentSign cur).2 := rfl

theorem exponentSign_cons (c : Char) (rest : List Char) (p : Position) :
    exponentSign ⟨c :: rest, p⟩ =
      if c = '+' then (false, ⟨rest, p.after c⟩)
      else if c = '-' then (true, ⟨rest, p.after c⟩)
      else (false, ⟨c :: rest, p⟩) := by
  by_cases hplus : c = '+'
  · subst hplus
    rfl
  by_cases hminus : c = '-'
  · subst hminus
    rfl
  rw [if_neg hplus, if_neg hminus, exponentSign]
  split <;> simp_all

theorem readExponentDigits_isLocal (negative : Bool) (digits : Nat) (start : Int) (below : Bool) :
    IsLocal (readExponentDigits negative digits start below) := by
  intro text p a behind hread hend rest q hrest
  cases text with
  | nil => cases hread
  | cons c text =>
      simp only [readExponentDigits, digitRun] at hread
      have hrun := takeWhile_isDigit_append (c :: text) hrest
      rw [List.cons_append] at hrun ⊢
      simp only [readExponentDigits, digitRun, hrun]
      by_cases hc : c.isDigit
      · simp only [hc, Bool.not_true, Bool.false_eq_true, if_false] at hread ⊢
        cases hvalue : gatherExponent 0 ((c :: text).takeWhile Char.isDigit) with
        | ok e =>
            simp only [hvalue] at hread ⊢
            exact (fractionOf_isLocal _ _ _).past_digits hread hend q hrest
        | error left =>
            simp only [hvalue] at hread ⊢
            by_cases hlarge : (digits != 0 && !below) = true
            · rw [if_pos hlarge] at hread
              cases hread
            · rw [if_neg hlarge] at hread ⊢
              exact (isLocal_ok _).past_digits hread hend q hrest
      · simp only [hc] at hread
        cases hread

theorem readExponent_isLocal (negative : Bool) (digits : Nat) (start : Int) :
    IsLocal (readExponent negative digits start) := by
  intro text p a behind hread hend rest q hrest
  cases text with
  | nil => cases hread
  | cons c text =>
      have hdigits := readExponentDigits_isLocal negative digits start
      rw [List.cons_append, readExponent_eq, exponentSign_cons]
      rw [readExponent_eq, exponentSign_cons] at hread
      by_cases hplus : c = '+'
      · rw [if_pos hplus] at hread ⊢
        exact (hdigits false).next hread hend q hrest
      rw [if_neg hplus] at hread ⊢
      by_cases hminus : c = '-'
      · rw [if_pos hminus] at hread ⊢
        exact (hdigits true).next hread hend q hrest
      · rw [if_neg hminus] at hread ⊢
        exact hdigits false hread hend rest q hrest

theorem readFractionEnd_cons (negative : Bool) (digits : Nat) (e : Int) (c : Char)
    (rest : List Char) (p : Position) :
    readFractionEnd negative digits e ⟨c :: rest, p⟩ =
      if c = 'e' ∨ c = 'E' then readExponent negative digits e ⟨rest, p.after c⟩
      else fractionOf negative digits e ⟨c :: rest, p⟩ := by
  by_cases hmark : c = 'e' ∨ c = 'E'
  · obtain rfl | rfl := hmark <;> rfl
  · rw [if_neg hmark, readFractionEnd]
    split <;> simp_all

theorem readFractionEnd_isLocal (negative : Bool) (digits : Nat) (e : Int) :
    IsLocal (readFractionEnd negative digits e) := by
  intro text p a behind hread hend rest q hrest
  cases text with
  | nil =>
      -- What follows the value is no mark of an exponent.
      obtain ⟨c, tail, rfl, hc⟩ := id hrest
      have hmark : ¬(c = 'e' ∨ c = 'E') := by
        obtain rfl | rfl := hc <;> decide
      rw [List.nil_append, readFractionEnd_cons, if_neg hmark]
      exact fractionOf_isLocal _ _ _ hread hend _ q hrest
  | cons c text =>
      rw [List.cons_append, readFractionEnd_cons]
      rw [readFractionEnd_cons] at hread
      by_cases hmark : c = 'e' ∨ c = 'E'
      · rw [if_pos hmark] at hread ⊢
        exact (readExponent_isLocal _ _ _).next hread hend q hrest
      · rw [if_neg hmark] at hread ⊢
        exact fractionOf_isLocal _ _ _ hread hend rest q hrest

theorem readPlaces_isLocal (negative : Bool) (digits : Nat) (start : Int) :
    IsLocal (readPlaces negative digits start) := by
  intro text p a behind hread hend rest q hrest
  simp only [readPlaces, digitRun] at hread
  simp only [readPlaces, digitRun, takeWhile_isDigit_append _ hrest]
  by_cases hnone : (text.takeWhile Char.isDigit).isEmpty
  · simp only [hnone, if_true] at hread
    cases text <;> cases hread
  · simp only [hnone] at hread ⊢
    exact (readFractionEnd_isLocal _ _ _).past_digits hread hend q hrest

/-- What `readNumber` does behind the digits, some of which may be left because they did not
fit. -/
def readNumberEnd (negative : Bool) (n : Nat) (left : List Char) : Reader Number := fun cur =>
  match cur.rest with
  | '.' :: _ => readPlaces negative n left.length cur.next
  | 'e' :: _ => readExponent negative n left.length cur.next
  | 'E' :: _ => readExponent negative n left.length cur.next
  | _ =>
    if left.isEmpty then .ok (wholeNumber negative n, cur)
    else fractionOf negative n left.length cur

theorem readNumber_cons (negative : Bool) (c : Char) (rest : List Char) (p : Position) :
    readNumber negative ⟨c :: rest, p⟩ =
      if !c.isDigit then .error ⟨.malformedNumber, p.afterByte c⟩
      else if c = '0' then
        if (rest.head?.map Char.isDigit).getD false then
          (⟨rest, p.after '0'⟩ : Cursor).faultNext .malformedNumber
        else readNumberEnd negative 0 [] ⟨rest, p.after '0'⟩
      else
        readNumberEnd negative (gather 0 (digitRun ⟨c :: rest, p⟩)).1
          (gather 0 (digitRun ⟨c :: rest, p⟩)).2
          ((⟨c :: rest, p⟩ : Cursor).past (digitRun ⟨c :: rest, p⟩)) := by
  by_cases hzero : c = '0'
  · subst hzero
    rfl
  · rw [if_neg hzero]
    simp only [readNumber, hzero, decide_false, Bool.false_and, if_false]
    rfl

theorem readNumberEnd_cons (negative : Bool) (n : Nat) (left : List Char) (c : Char)
    (rest : List Char) (p : Position) :
    readNumberEnd negative n left ⟨c :: rest, p⟩ =
      if c = '.' then readPlaces negative n left.length ⟨rest, p.after c⟩
      else if c = 'e' ∨ c = 'E' then readExponent negative n left.length ⟨rest, p.after c⟩
      else if left.isEmpty then .ok (wholeNumber negative n, ⟨c :: rest, p⟩)
      else fractionOf negative n left.length ⟨c :: rest, p⟩ := by
  by_cases hpoint : c = '.'
  · subst hpoint
    rfl
  by_cases hmark : c = 'e' ∨ c = 'E'
  · obtain rfl | rfl := hmark <;> rfl
  · rw [if_neg hpoint, if_neg hmark, readNumberEnd]
    split <;> simp_all

theorem readNumberEnd_isLocal (negative : Bool) (n : Nat) (left : List Char) :
    IsLocal (readNumberEnd negative n left) := by
  intro text p a behind hread hend rest q hrest
  cases text with
  | nil =>
      -- What follows the value belongs to no number.
      obtain ⟨c, tail, rfl, hc⟩ := id hrest
      have hpoint : c ≠ '.' := by obtain rfl | rfl := hc <;> decide
      have hmark : ¬(c = 'e' ∨ c = 'E') := by obtain rfl | rfl := hc <;> decide
      rw [List.nil_append, readNumberEnd_cons, if_neg hpoint, if_neg hmark]
      simp only [readNumberEnd] at hread
      by_cases hleft : left.isEmpty
      · rw [if_pos hleft] at hread ⊢
        exact isLocal_ok _ hread hend _ q hrest
      · rw [if_neg hleft] at hread ⊢
        exact fractionOf_isLocal _ _ _ hread hend _ q hrest
  | cons c text =>
      rw [List.cons_append, readNumberEnd_cons]
      rw [readNumberEnd_cons] at hread
      by_cases hpoint : c = '.'
      · rw [if_pos hpoint] at hread ⊢
        exact (readPlaces_isLocal _ _ _).next hread hend q hrest
      rw [if_neg hpoint] at hread ⊢
      by_cases hmark : c = 'e' ∨ c = 'E'
      · rw [if_pos hmark] at hread ⊢
        exact (readExponent_isLocal _ _ _).next hread hend q hrest
      rw [if_neg hmark] at hread ⊢
      by_cases hleft : left.isEmpty
      · rw [if_pos hleft] at hread ⊢
        exact isLocal_ok _ hread hend rest q hrest
      · rw [if_neg hleft] at hread ⊢
        exact fractionOf_isLocal _ _ _ hread hend rest q hrest

/-- **The reading of a number is local.** -/
theorem readNumber_isLocal (negative : Bool) : IsLocal (readNumber negative) := by
  intro text p a behind hread hend rest q hrest
  cases text with
  | nil => cases hread
  | cons c text =>
      have hrun : digitRun ⟨c :: (text ++ rest), q⟩ = (c :: text).takeWhile Char.isDigit :=
        takeWhile_isDigit_append (c :: text) hrest
      rw [readNumber_cons] at hread
      rw [List.cons_append, readNumber_cons, hrun]
      by_cases hc : c.isDigit
      · simp only [hc, Bool.not_true, Bool.false_eq_true, if_false] at hread ⊢
        by_cases hzero : c = '0'
        · rw [if_pos hzero] at hread ⊢
          rw [head?_isDigit_append _ hrest]
          by_cases hmore : (text.head?.map Char.isDigit).getD false = true
          · rw [if_pos hmore] at hread
            cases hread
          · rw [if_neg hmore] at hread ⊢
            subst hzero
            exact (readNumberEnd_isLocal _ _ _).next hread hend q hrest
        · rw [if_neg hzero] at hread ⊢
          exact (readNumberEnd_isLocal _ _ _).past_digits hread hend q hrest
      · simp only [hc] at hread
        cases hread

end LintSuite.Json

namespace LintSuite.Settings

open Json

/-- Reading something only to name it in a fault. -/
theorem bind_fault_ne_ok {α β : Type} {x : Except Fault α} {fault : α → Fault} {b : β} :
    (x >>= fun a => Except.error (fault a)) ≠ .ok b := by
  cases x <;> exact fun h => nomatch h

/-- A value of the wrong type is not read. -/
theorem refuse_ne_ok {α : Type} (wanted : String) (cur : Cursor) (a : α) :
    refuse wanted cur ≠ .ok a := by
  rw [refuse]
  split
  next => exact fun h => nomatch h
  next =>
    split_ifs
    -- A value without parts is read to be named, and then refused.
    iterate 6 exact bind_fault_ne_ok
    -- A value with parts is refused at once.
    iterate 3 exact fun h => nomatch h

theorem readAnyNumber_isLocal (wanted : String) : IsLocal (readAnyNumber wanted) := by
  intro text p a behind hread hend rest q hrest
  induction text generalizing p q with
  | nil => cases hread
  | cons c text ih =>
      by_cases hspace : isSpace c = true
      · have hskip : ∀ rest p, readAnyNumber wanted ⟨c :: rest, p⟩ =
            readAnyNumber wanted ⟨rest, p.after c⟩ := by
          intro rest p
          rw [readAnyNumber, Cursor.skipSpace_of_isSpace hspace]
          rfl
        rw [hskip] at hread
        rw [List.cons_append, hskip]
        exact ih hread _
      · rw [Bool.not_eq_true] at hspace
        rw [readAnyNumber, Cursor.skipSpace_of_not_isSpace hspace] at hread
        rw [List.cons_append, readAnyNumber, Cursor.skipSpace_of_not_isSpace hspace]
        by_cases hminus : c = '-'
        · simp only [hminus, if_true] at hread ⊢
          exact (readNumber_isLocal true).next hread hend q hrest
        simp only [hminus, if_false] at hread ⊢
        by_cases hdigit : c.isDigit
        · simp only [hdigit, if_true] at hread ⊢
          exact readNumber_isLocal false hread hend rest q hrest
        · rw [if_neg hdigit] at hread
          exact absurd hread (refuse_ne_ok _ _ _)

/-- A number as a fraction. -/
def fractionOfNumber : Number → Float
  | .natural n => Decimal.nearest false ⟨n.toNat, 0⟩
  | .negative n => Decimal.nearest true ⟨n.toNat, 0⟩
  | .fraction x => x

theorem readFloat_eq (cur : Cursor) :
    readFloat cur =
      (readAnyNumber "f64" cur).map fun read => (fractionOfNumber read.1, read.2) := by
  rw [readFloat]
  cases readAnyNumber "f64" cur with
  | error e => rfl
  | ok read => obtain ⟨_ | _ | _, behind⟩ := read <;> rfl

/-- **The reading of a fraction is local.** -/
theorem readFloat_isLocal : IsLocal readFloat := by
  intro text p x behind hread hend rest q hrest
  rw [readFloat_eq] at hread ⊢
  cases halone : readAnyNumber "f64" ⟨text, p⟩ with
  | error e =>
      rw [halone] at hread
      cases hread
  | ok read =>
      rw [halone] at hread
      cases hread
      rw [readAnyNumber_isLocal "f64" halone hend rest q hrest]
      rfl

/-! ### Whole numbers -/

section WholeNumbers

open Decimal

/-- Digits never make a value smaller. -/
theorem le_ofDigitChars (value : Nat) (ds : List Char) : value ≤ Nat.ofDigitChars 10 ds value := by
  rw [Nat.ofDigitChars_eq_ofDigitChars_zero]
  exact (Nat.le_mul_of_pos_left value (by positivity)).trans (Nat.le_add_right _ _)

/-- Digits are gathered to their value, if that fits. -/
theorem gather_eq {value : Nat} {ds : List Char} (h : Nat.ofDigitChars 10 ds value < wordLimit) :
    gather value ds = (Nat.ofDigitChars 10 ds value, []) := by
  induction ds generalizing value with
  | nil => rfl
  | cons d ds ih =>
      rw [Nat.ofDigitChars_cons, Nat.mul_comm] at h ⊢
      rw [gather, if_pos ((le_ofDigitChars _ _).trans_lt h), ih h]

/-- A whole number has a leading zero only if it is zero. -/
theorem head?_digitsOf {n : Nat} (h : n ≠ 0) : (digitsOf n).head? ≠ some '0' := by
  induction n using Nat.strong_induction_on with
  | _ n ih =>
      rw [digitsOf, Nat.toDigits_eq_if (by decide)]
      by_cases hsmall : n < 10
      · rw [if_pos hsmall]
        interval_cases n <;> first | exact absurd rfl h | decide
      · rw [if_neg hsmall, List.head?_append_of_ne_nil _ Nat.toDigits_ne_nil]
        exact ih (n / 10) (by omega) (by omega)

/-- The digits of a whole number are read as that number. -/
theorem readNumber_digitsOf {n : Nat} (h : n < wordLimit) (p : Position) :
    readNumber false ⟨digitsOf n, p⟩ =
      .ok (.natural (UInt64.ofNat n), ⟨[], p.afterAll (digitsOf n)⟩) := by
  have hdigits : ∀ c ∈ digitsOf n, c.isDigit = true := fun c hc =>
    Nat.isDigit_of_mem_toDigits (by decide) (by decide) hc
  have hvalue : Nat.ofDigitChars 10 (digitsOf n) 0 = n :=
    Nat.ofDigitChars_toDigits (by decide) (by decide)
  by_cases hzero : n = 0
  · subst hzero
    rfl
  obtain ⟨c, ds, hcons⟩ := List.exists_cons_of_ne_nil (Nat.toDigits_ne_nil (n := n) (b := 10))
  have hhead := head?_digitsOf hzero
  rw [digitsOf] at hdigits hvalue hhead ⊢
  rw [hcons] at hdigits hvalue hhead ⊢
  have hrun : digitRun ⟨c :: ds, p⟩ = c :: ds := List.takeWhile_eq_self_iff.mpr hdigits
  have hpast : (⟨c :: ds, p⟩ : Cursor).past (c :: ds) = ⟨[], p.afterAll (c :: ds)⟩ := by
    simp [Cursor.past]
  have hc : c ≠ '0' := by simpa using hhead
  rw [readNumber_cons, hdigits c List.mem_cons_self, if_neg (by decide), if_neg hc, hrun,
    gather_eq (by rwa [hvalue]), hvalue, hpast]
  rfl

theorem isSpace_eq_false_of_isDigit {c : Char} (h : c.isDigit = true) : isSpace c = false := by
  rw [Bool.eq_false_iff]
  intro hspace
  simp only [isSpace, Bool.or_eq_true, beq_iff_eq] at hspace
  obtain ((rfl | rfl) | rfl) | rfl := hspace <;> cases h

theorem readAnyNumber_digitsOf (wanted : String) {n : Nat} (h : n < wordLimit) (p : Position) :
    readAnyNumber wanted ⟨digitsOf n, p⟩ =
      .ok (.natural (UInt64.ofNat n), ⟨[], p.afterAll (digitsOf n)⟩) := by
  rw [← readNumber_digitsOf h]
  obtain ⟨c, ds, hcons⟩ := List.exists_cons_of_ne_nil (Nat.toDigits_ne_nil (n := n) (b := 10))
  have hdigit : c.isDigit = true :=
    Nat.isDigit_of_mem_toDigits (by decide) (by decide) (hcons ▸ List.mem_cons_self)
  rw [digitsOf, hcons]
  have hminus : c ≠ '-' := by
    rintro rfl
    cases hdigit
  rw [readAnyNumber, Cursor.skipSpace_of_not_isSpace (isSpace_eq_false_of_isDigit hdigit)]
  simp only [hminus, hdigit, if_true, if_false]

/-- **The digits of a whole number are taken for it**, below any bound that fits. -/
theorem takes_digitsOf (wanted : String) {n bound : Nat} (hn : n < bound)
    (hbound : bound ≤ wordLimit) : Takes (readWhole wanted bound) (digitsOf n) n := by
  have hword : n < wordLimit := hn.trans_le hbound
  have hback : (UInt64.ofNat n).toNat = n := UInt64.toNat_ofNat_of_lt' hword
  intro rest p hrest
  rw [readWhole, readAnyNumber_isLocal wanted (readAnyNumber_digitsOf wanted hword p) rfl
    rest p hrest]
  simp only [bind, Except.bind, hback, hn, if_true]

end WholeNumbers

end LintSuite.Settings
