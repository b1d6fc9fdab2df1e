import LintSuite.Proofs.JsonNumeral

/-!
# Reading a value by its type

Every setting has a type, and each type has its reader.  A value either means something of the type
(`Value.fraction?`, `Value.natural?`, `Value.truth?`, `Value.texts?`) and is read as that, or it means
nothing of the type and is refused: `readFloat_answers`, `readWhole_answers`, `readBool_answers` and
`readStrings_answers` state both at once.  `readField_answers` puts them together for the seven
settings.

Strings are read part by part, with half of a pair of code units held back until the other half is
there (`readTextFrom_part`).

### Design decisions

**Reading and refusing in one statement.**  For each type there is a function that gives the meaning of
a value or none, and `Answers` ties the reader to it: a value with a meaning is read as it, with the
cursor behind the value, and one without is refused.  So every lemma is an equation, and nothing about
refusals has to be proved a second time.

**White space at two places.**  Readers skip it in front of a value, and containers skip it behind one.
`readField_element` puts both together, so that callers can work with elements, which have white space
around them.

### What is load-bearing

`readTextFrom_part`, the step for strings.  It has a case for each way in which a part of a string can
follow a half of a pair that waits; what the reader keeps in its state is what `unescapeFrom` keeps as
an argument.
-/

namespace LintSuite.Json

/-! ### What a value means -/

namespace Value

/-- A value that is a number. -/
def numeral? : Value → Option Numeral
  | .number n => some n
  | _ => none

/-- **A value as a fraction.** -/
def fraction? (value : Value) : Option Float := value.numeral?.bind Numeral.fraction?

/-- **A value as a whole number below a bound.** -/
def natural? (bound : Nat) (value : Value) : Option Nat :=
  value.numeral?.bind (Numeral.natural? bound)

/-- **A value as a truth value.** -/
def truth? : Value → Option Bool
  | .truth b => some b
  | _ => none

/-- A value as a text. -/
def text? : Value → Option String
  | .string parts => unescape parts
  | _ => none

/-- **A value as a list of texts.** -/
def texts? : Value → Option (List String)
  | .list values => values.mapM text?
  | _ => none

end Value

/-! ### Answers one after the other -/

section Answers

variable {α β : Type} {result : Except Fault (α × Cursor)} {answer : Option α}
  {rest : List Char}

/-- A reader that does something with what another one reads. -/
theorem Answers.bind (h : Answers result answer rest) {next : α × Cursor → Except Fault (β × Cursor)}
    {then? : α → Option β} {others : List Char}
    (hnext : ∀ a p, answer = some a → Answers (next (a, ⟨rest, p⟩)) (then? a) others) :
    Answers (result >>= next) (answer.bind then?) others := by
  cases answer with
  | some a =>
      obtain ⟨p, rfl⟩ := h
      exact hnext a p rfl
  | none =>
      obtain ⟨fault, rfl⟩ := h
      exact ⟨fault, rfl⟩

/-- A reader that makes something of what another one reads, step by step. -/
theorem Answers.bind_ok (h : Answers result answer rest)
    {next : α × Cursor → Except Fault (β × Cursor)} {f : α → β}
    (hnext : ∀ a p, next (a, ⟨rest, p⟩) = .ok (f a, ⟨rest, p⟩)) :
    Answers (result >>= next) (answer.map f) rest := by
  cases answer with
  | some a =>
      obtain ⟨p, rfl⟩ := h
      exact ⟨p, hnext a p⟩
  | none =>
      obtain ⟨fault, rfl⟩ := h
      exact ⟨fault, rfl⟩

/-- A reader that makes something of what another one reads. -/
theorem Answers.map (h : Answers result answer rest) (f : α → β) :
    Answers (result.map fun read => (f read.1, read.2)) (answer.map f) rest := by
  cases answer with
  | some a =>
      obtain ⟨p, rfl⟩ := h
      exact answers_some _ _ _
  | none =>
      obtain ⟨fault, rfl⟩ := h
      exact answers_none _ _

end Answers

end LintSuite.Json

namespace LintSuite.Settings

open Json

theorem refuse_answers {α : Type} (wanted : String) (cur : Cursor) (rest : List Char) :
    Answers (refuse wanted cur : Except Fault (α × Cursor)) none rest := by
  cases hrefuse : (refuse wanted cur : Except Fault (α × Cursor)) with
  | ok read => exact absurd hrefuse (refuse_ne_ok wanted cur read)
  | error fault => exact ⟨fault, rfl⟩

/-- White space in front of a value is skipped to its first character. -/
theorem skipSpace_before {spaces : List Char} (hspaces : AreSpaces spaces) {c : Char}
    (hc : isSpace c = false) (rest : List Char) (p : Position) :
    (⟨spaces ++ c :: rest, p⟩ : Cursor).skipSpace = ⟨c :: rest, p.afterAll spaces⟩ := by
  rw [skipSpace_append hspaces, Cursor.skipSpace_of_not_isSpace hc]

/-! ### Numbers -/

theorem readAnyNumber_of_ne (wanted : String) {spaces : List Char} (hspaces : AreSpaces spaces)
    {c : Char} (hc : isSpace c = false) (hminus : c ≠ '-') (hdigit : c.isDigit = false)
    (rest : List Char) (p : Position) :
    readAnyNumber wanted ⟨spaces ++ c :: rest, p⟩ =
      refuse wanted ⟨c :: rest, p.afterAll spaces⟩ := by
  rw [readAnyNumber, skipSpace_before hspaces hc]
  simp only [hminus, hdigit, Bool.false_eq_true, if_false]

/-- **A number is read, and anything else is refused.** -/
theorem readAnyNumber_answers (wanted : String) {value : Value} {spaces text : List Char}
    (hspaces : AreSpaces spaces) (h : IsValue value text) {rest : List Char}
    (hrest : EndsNumber rest) (p : Position) :
    Answers (readAnyNumber wanted ⟨spaces ++ (text ++ rest), p⟩)
      (value.numeral?.bind Numeral.number?) rest := by
  obtain ⟨c, tail, htext, hstart⟩ := h.start
  cases h with
  | @number n _ hnumber =>
      have hspace := skipSpace_before hspaces hstart.isSpace_eq_false (tail ++ rest) p
      rw [← List.cons_append, ← htext] at hspace
      rw [readAnyNumber, hspace]
      obtain ⟨exponent, hexponent, rfl⟩ := hnumber
      obtain ⟨d, ds, hwhole, hd⟩ := n.whole_digits.exists_cons
      have hread := fun q => readNumber_answers n hexponent hrest q
      simp only [List.append_assoc]
      cases hsign : n.negative with
      | true =>
          rw [hsign] at hread
          exact hread _
      | false =>
          rw [hsign] at hread
          have hdigit := hread (p.afterAll spaces)
          rw [hwhole] at hdigit ⊢
          simp only [signText, Bool.false_eq_true, if_false, List.nil_append, List.cons_append,
            ne_of_isDigit hd (d := '-') rfl, hd, if_true]
          exact hdigit
  | null | yes | no | string | emptyList | list | emptyObject | object =>
      rw [htext, List.cons_append, readAnyNumber_of_ne wanted hspaces hstart.isSpace_eq_false
        (by cases hstart; decide) (by cases hstart; rfl)]
      exact refuse_answers _ _ _

/-- **A fraction is read as what it means.** -/
theorem readFloat_answers {value : Value} {spaces text : List Char}
    (hspaces : AreSpaces spaces) (h : IsValue value text) {rest : List Char}
    (hrest : EndsNumber rest) (p : Position) :
    Answers (readFloat ⟨spaces ++ (text ++ rest), p⟩) value.fraction? rest := by
  have hmeans : value.fraction? =
      (value.numeral?.bind Numeral.number?).map fractionOfNumber := by
    cases value with
    | number n => exact n.map_number?.symm
    | null | truth | string | list | object => rfl
  rw [readFloat_eq, hmeans]
  exact (readAnyNumber_answers "f64" hspaces h hrest p).map fractionOfNumber

/-- A number as a whole number below a bound. -/
def wholeOfNumber? (bound : Nat) : Number → Option Nat
  | .natural n => if n.toNat < bound then some n.toNat else none
  | _ => none

/-- A number that is read is the whole number that it means. -/
theorem bind_wholeOfNumber? {bound : Nat} (hbound : bound ≤ wordLimit) (n : Numeral) :
    n.number?.bind (wholeOfNumber? bound) = n.natural? bound := by
  by_cases hfits : n.IsWhole ∧ n.wholeValue < wordLimit
  · have hback : (UInt64.ofNat n.wholeValue).toNat = n.wholeValue :=
      UInt64.toNat_ofNat_of_lt' hfits.2
    rw [Numeral.number?_of_fits hfits, Numeral.natural?, Option.bind_some]
    cases hsign : n.negative with
    | false => simp [wholeNumber, wholeOfNumber?, hback, hfits.1]
    | true =>
        rw [if_neg (by simp)]
        simp only [wholeNumber, Bool.not_true, Bool.false_eq_true, if_false]
        split <;> rfl
  · have hnone : ¬(n.IsWhole ∧ n.negative = false ∧ n.wholeValue < bound) :=
      fun h => hfits ⟨h.1, h.2.2.trans_le hbound⟩
    rw [Numeral.number?_of_not_fits hfits, Numeral.natural?, if_neg hnone]
    cases Numeral.scaledBy? n.leading.1 n.leading.2 n.exponent <;> rfl

/-- **A whole number is read as what it means.** -/
theorem readWhole_answers (wanted : String) {bound : Nat} (hbound : bound ≤ wordLimit)
    {value : Value} {spaces text : List Char} (hspaces : AreSpaces spaces)
    (h : IsValue value text) {rest : List Char} (hrest : EndsNumber rest) (p : Position) :
    Answers (readWhole wanted bound ⟨spaces ++ (text ++ rest), p⟩) (value.natural? bound)
      rest := by
  have hmeans : value.natural? bound =
      (value.numeral?.bind Numeral.number?).bind (wholeOfNumber? bound) := by
    cases value with
    | number n => exact (bind_wholeOfNumber? hbound n).symm
    | null | truth | string | list | object => rfl
  rw [readWhole, hmeans]
  refine (readAnyNumber_answers wanted hspaces h hrest p).bind fun n q _ => ?_
  cases n with
  | natural w =>
      simp only [wholeOfNumber?]
      split
      · exact answers_some _ _ _
      · exact answers_none _ _
  | negative w => exact answers_none _ _
  | fraction x => exact answers_none _ _

/-! ### Truth values -/

theorem readBool_of_ne {spaces : List Char} (hspaces : AreSpaces spaces) {c : Char}
    (hc : isSpace c = false) (ht : c ≠ 't') (hf : c ≠ 'f') (rest : List Char) (p : Position) :
    readBool ⟨spaces ++ c :: rest, p⟩ = refuse "a boolean" ⟨c :: rest, p.afterAll spaces⟩ := by
  rw [readBool, skipSpace_before hspaces hc]
  simp only [ht, hf, if_false]

/-- **A truth value is read, and anything else is refused.** -/
theorem readBool_answers {value : Value} {spaces text : List Char}
    (hspaces : AreSpaces spaces) (h : IsValue value text) (rest : List Char) (p : Position) :
    Answers (readBool ⟨spaces ++ (text ++ rest), p⟩) value.truth? rest := by
  obtain ⟨c, tail, htext, hstart⟩ := h.start
  cases h with
  | yes =>
      have hword := readWord_append ['r', 'u', 'e'] rest ((p.afterAll spaces).after 't')
      refine ⟨((p.afterAll spaces).after 't').afterAll ['r', 'u', 'e'], ?_⟩
      rw [List.cons_append, readBool, skipSpace_before hspaces rfl]
      simp only [if_true, Cursor.next_cons, hword]
      rfl
  | no =>
      have hword := readWord_append ['a', 'l', 's', 'e'] rest ((p.afterAll spaces).after 'f')
      refine ⟨((p.afterAll spaces).after 'f').afterAll ['a', 'l', 's', 'e'], ?_⟩
      rw [List.cons_append, readBool, skipSpace_before hspaces rfl]
      simp only [Char.reduceEq, if_true, if_false, Cursor.next_cons, hword]
      rfl
  | null | number | string | emptyList | list | emptyObject | object =>
      have ht : c ≠ 't' := by
        rintro rfl
        simp [Value.StartsWith] at hstart
      have hf : c ≠ 'f' := by
        rintro rfl
        simp [Value.StartsWith] at hstart
      rw [htext, List.cons_append, readBool_of_ne hspaces hstart.isSpace_eq_false ht hf]
      exact refuse_answers _ _ _

/-! ### Texts -/

/-- Where the reading of a string stands between two parts. -/
def betweenParts : Option Nat → TextState
  | none => .plain
  | some high => .paired high

/-- What the reading of an escape makes of its value, with the first half of a pair in front of it or
without. -/
theorem unescapeFrom_unit (high : Option Nat) (n : Nat) (parts : List StringPart) :
    (∃ next chars, escapeValue true n high = .ok (betweenParts next, chars) ∧
      unescapeFrom high (.unit n :: parts) = (unescapeFrom next parts).map (chars.reverse ++ ·)) ∨
    (∃ cause, escapeValue true n high = .error cause) ∧
      unescapeFrom high (.unit n :: parts) = none := by
  cases high with
  | none =>
      by_cases hlow : isLowSurrogate n = true
      · exact .inr ⟨⟨.loneSurrogate, by simp [escapeValue, hlow]⟩, by simp [unescapeFrom, hlow]⟩
      by_cases hhigh : isHighSurrogate n = true
      · exact .inl ⟨some n, [], by simp [escapeValue, hlow, hhigh, betweenParts],
          by simp [unescapeFrom, hlow, hhigh]⟩
      · exact .inl ⟨none, [Char.ofNat n], by simp [escapeValue, hlow, hhigh, betweenParts],
          by simp [unescapeFrom, hlow, hhigh]⟩
  | some high =>
      by_cases hlow : isLowSurrogate n = true
      · exact .inl ⟨none, [pairChar high n], by simp [escapeValue, hlow, betweenParts],
          by simp [unescapeFrom, hlow]⟩
      · exact .inr ⟨⟨.loneSurrogate, by simp [escapeValue, hlow]⟩, by simp [unescapeFrom, hlow]⟩

/-- **One part of a string**: the reading takes up its characters, or it is refused and means
nothing. -/
theorem readTextFrom_part {part : StringPart} {text : List Char} (h : IsPart part text)
    (high : Option Nat) (parts : List StringPart) :
    (∃ next chars,
      (∀ before rest p, ∃ q, readTextFrom true (betweenParts high) before p (text ++ rest) =
        readTextFrom true (betweenParts next) (chars ++ before) q rest) ∧
      unescapeFrom high (part :: parts) = (unescapeFrom next parts).map (chars.reverse ++ ·)) ∨
    ((∀ before rest p, ∃ fault,
      readTextFrom true (betweenParts high) before p (text ++ rest) = .error fault) ∧
      unescapeFrom high (part :: parts) = none) := by
  cases h with
  | @plain c hcontrol hquote hslash =>
      cases high with
      | none =>
          refine .inl ⟨none, [c], fun before rest p => ⟨p.after c, ?_⟩, rfl⟩
          rw [List.singleton_append, betweenParts, readTextFrom]
          simp only [hquote, hslash, Nat.not_lt.mpr hcontrol, if_false]
          rfl
      | some high =>
          refine .inr ⟨fun before rest p => ⟨⟨.unpairedSurrogate, p.afterByte c⟩, ?_⟩, rfl⟩
          rw [List.singleton_append, betweenParts, readTextFrom]
          simp only [hslash, if_false]
  | @short e c hmem =>
      obtain ⟨hu, hvalue⟩ := shortEscape?_of_mem hmem
      cases high with
      | none =>
          refine .inl ⟨none, [c], fun before rest p => ⟨(p.after '\\').after e, ?_⟩, rfl⟩
          simp only [List.cons_append, List.nil_append, betweenParts, readTextFrom, hu, hvalue,
            if_true, if_false, Char.reduceEq]
      | some high =>
          refine .inr ⟨fun before rest p =>
            ⟨⟨.unpairedSurrogate, (p.after '\\').afterByte e⟩, ?_⟩, rfl⟩
          simp only [List.cons_append, List.nil_append, betweenParts, readTextFrom, hu, if_true,
            if_false]
  | @unit a b c d va vb vc vd ha hb hc hd =>
      have hdigits : ∀ before rest p,
          readTextFrom true (betweenParts high) before p ('\\' :: 'u' :: a :: b :: c :: d :: rest) =
            readTextFrom true (.digits 4 0 high) before ((p.after '\\').after 'u')
              (a :: b :: c :: d :: rest) := by
        intro before rest p
        cases high with
        | none => rw [betweenParts, readTextFrom, readTextFrom]; rfl
        | some high => rw [betweenParts, readTextFrom, readTextFrom]; rfl
      obtain ⟨next, chars, hvalue, hmeans⟩ | ⟨⟨cause, hvalue⟩, hmeans⟩ :=
        unescapeFrom_unit high (((va * 16 + vb) * 16 + vc) * 16 + vd) parts
      · refine .inl ⟨next, chars, fun before rest p =>
          ⟨((p.after '\\').after 'u').afterAll [a, b, c, d], ?_⟩, hmeans⟩
        exact (hdigits before rest p).trans
          (readTextFrom_digits ha hb hc hd hvalue before rest _)
      · refine .inr ⟨fun before rest p =>
          ⟨⟨cause, ((p.after '\\').after 'u').afterAll [a, b, c, d]⟩, ?_⟩, hmeans⟩
        exact (hdigits before rest p).trans
          (readTextFrom_digits_of_error ha hb hc hd hvalue before rest _)

/-- **A string is read as what its parts mean**, up to its closing quote. -/
theorem readTextFrom_answers {parts : List StringPart} {text : List Char}
    (h : AreParts parts text) (high : Option Nat) (before rest : List Char) (p : Position) :
    Answers (readTextFrom true (betweenParts high) before p (text ++ '"' :: rest))
      ((unescapeFrom high parts).map (before.reverse ++ ·)) rest := by
  induction h generalizing high before p with
  | nil =>
      cases high with
      | none =>
          simp only [unescapeFrom, Option.map_some, List.append_nil]
          exact ⟨p.after '"', rfl⟩
      | some high => exact answers_none _ _
  | @cons part parts text others hpart _ ih =>
      rw [List.append_assoc]
      obtain ⟨next, chars, hread, hmeans⟩ | ⟨hread, hmeans⟩ := readTextFrom_part hpart high parts
      · obtain ⟨q, hq⟩ := hread before (others ++ '"' :: rest) p
        have hrest := ih next (chars ++ before) q
        rw [List.reverse_append] at hrest
        rw [hq, hmeans, Option.map_map]
        simpa only [Function.comp_def, List.append_assoc] using hrest
      · obtain ⟨fault, hfault⟩ := hread before (others ++ '"' :: rest) p
        rw [hfault, hmeans]
        exact answers_none _ _

theorem readText_eq (cur : Cursor) :
    readText cur = (readTextFrom true .plain [] cur.position cur.rest).map
      fun read => (String.ofList read.1, read.2) := by
  rw [readText]
  cases readTextFrom true .plain [] cur.position cur.rest <;> rfl

/-- **A string is read as the text that it means**, and one that means none is refused. -/
theorem readText_answers {parts : List StringPart} {text : List Char} (h : AreParts parts text)
    (rest : List Char) (p : Position) :
    Answers (readText ⟨text ++ '"' :: rest, p⟩) (unescape parts) rest := by
  have hread := (readTextFrom_answers h none [] rest p).map String.ofList
  rw [Option.map_map] at hread
  rw [readText_eq]
  exact hread

theorem readString_of_ne {spaces : List Char} (hspaces : AreSpaces spaces) {c : Char}
    (hc : isSpace c = false) (hquote : c ≠ '"') (rest : List Char) (p : Position) :
    readString ⟨spaces ++ c :: rest, p⟩ = refuse "a string" ⟨c :: rest, p.afterAll spaces⟩ := by
  rw [readString, skipSpace_before hspaces hc]
  split <;> simp_all

/-- **A text is read, and anything else is refused.** -/
theorem readString_answers {value : Value} {spaces text : List Char}
    (hspaces : AreSpaces spaces) (h : IsValue value text) (rest : List Char) (p : Position) :
    Answers (readString ⟨spaces ++ (text ++ rest), p⟩) value.text? rest := by
  obtain ⟨c, tail, htext, hstart⟩ := h.start
  cases h with
  | @string parts text hparts =>
      rw [List.cons_append, List.append_assoc, readString, skipSpace_before hspaces rfl]
      exact readText_answers hparts rest _
  | null | yes | no | number | emptyList | list | emptyObject | object =>
      have hquote : c ≠ '"' := by
        rintro rfl
        simp [Value.StartsWith] at hstart
      rw [htext, List.cons_append, readString_of_ne hspaces hstart.isSpace_eq_false hquote]
      exact refuse_answers _ _ _

/-! ### Lists -/

/-- **In front of a text**: the first of several starts here, and any other one behind a comma. -/
inductive InFront : Bool → Cursor → List Char → Prop where
  | first {text : List Char} (p : Position) : InFront true ⟨text, p⟩ text
  | further {spaces text : List Char} (hspaces : AreSpaces spaces) (p : Position) :
      InFront false ⟨spaces ++ ',' :: text, p⟩ text

theorem skipSpace_skipSpace (cur : Cursor) : cur.skipSpace.skipSpace = cur.skipSpace := by
  obtain ⟨rest, p⟩ := cur
  induction rest generalizing p with
  | nil => rfl
  | cons c rest ih =>
      cases hc : isSpace c with
      | true =>
          rw [Cursor.skipSpace_of_isSpace hc]
          exact ih _
      | false =>
          rw [Cursor.skipSpace_of_not_isSpace hc, Cursor.skipSpace_of_not_isSpace hc]

/-- **A list goes on** in front of an element. -/
theorem readElement?_of_inFront {first : Bool} {cur : Cursor} {text : List Char}
    (h : InFront first cur text) (hstart : StartsItem .list text) :
    ∃ p, readElement? first cur = .ok (true, (⟨text, p⟩ : Cursor).skipSpace) := by
  obtain ⟨spaces, c, rest, rfl, hspaces, hc, hne⟩ := hstart
  have hclose : c ≠ ']' := hne
  cases h with
  | first p =>
      refine ⟨p, ?_⟩
      rw [readElement?, skipSpace_before hspaces hc]
      simp only [hclose, if_false, if_true]
  | @further before _ hbefore p =>
      refine ⟨(p.afterAll before).after ',', ?_⟩
      rw [readElement?, skipSpace_before hbefore rfl]
      simp only [Char.reduceEq, Bool.false_eq_true, if_false, if_true, Cursor.next_cons,
        skipSpace_before hspaces hc]
      split <;> simp_all

/-- A list ends behind its last element. -/
theorem readElement?_close (first : Bool) {spaces : List Char} (hspaces : AreSpaces spaces)
    (rest : List Char) (p : Position) :
    readElement? first ⟨spaces ++ ']' :: rest, p⟩ =
      .ok (false, ⟨']' :: rest, p.afterAll spaces⟩) := by
  rw [readElement?, skipSpace_before hspaces rfl]
  rfl

/-- White space around an element does not matter to its reading. -/
theorem readString_element {value : Value} {text : List Char} (h : IsElement value text)
    (rest : List Char) (p : Position) :
    ∃ behind, AreSpaces behind ∧
      Answers (readString (⟨text ++ rest, p⟩ : Cursor).skipSpace) value.text? (behind ++ rest) := by
  cases h with
  | @spaced _ before text behind hbefore hvalue hbehind =>
      refine ⟨behind, hbehind, ?_⟩
      have hread := readString_answers hbefore hvalue (behind ++ rest) p
      have hspace : readString (⟨before ++ (text ++ (behind ++ rest)), p⟩ : Cursor).skipSpace =
          readString ⟨before ++ (text ++ (behind ++ rest)), p⟩ := by
        rw [readString, skipSpace_skipSpace, readString]
      rw [← hspace] at hread
      simpa only [List.append_assoc] using hread

/-- The list ends in front of its end. -/
theorem readStringsFrom_end (steps : Nat) (first : Bool) (before : List String)
    {spaces : List Char} (hspaces : AreSpaces spaces) (rest : List Char) (p : Position) :
    Answers (readStringsFrom (steps + 1) first before ⟨spaces ++ ']' :: rest, p⟩)
      (some before.reverse) rest := by
  refine ⟨(p.afterAll spaces).after ']', ?_⟩
  rw [readStringsFrom, readElement?_close first hspaces]
  rfl

/-- An element is read, and the list goes on behind it. -/
theorem readStringsFrom_first {value : Value} {text : List Char} (h : IsElement value text)
    {first : Bool} {cur : Cursor} {rest : List Char} (hcur : InFront first cur (text ++ rest))
    (hstart : StartsItem .list (text ++ rest)) {steps : Nat} {before : List String}
    {then? : String → Option (List String)} {others : List Char}
    (hnext : ∀ s behind p, AreSpaces behind →
      Answers (readStringsFrom steps false (s :: before) ⟨behind ++ rest, p⟩) (then? s) others) :
    Answers (readStringsFrom (steps + 1) first before cur) (value.text?.bind then?) others := by
  obtain ⟨p, hmore⟩ := readElement?_of_inFront hcur hstart
  obtain ⟨behind, hbehind, hread⟩ := readString_element h rest p
  have hunfold : readStringsFrom (steps + 1) first before cur =
      readString (⟨text ++ rest, p⟩ : Cursor).skipSpace >>= fun read =>
        readStringsFrom steps false (read.1 :: before) read.2 := by
    rw [readStringsFrom, hmore]
    rfl
  rw [hunfold]
  exact hread.bind fun s q _ => hnext s behind q hbehind

theorem mapM_text?_cons (value : Value) (values : List Value) :
    (value :: values).mapM Value.text? =
      value.text?.bind fun s => (values.mapM Value.text?).map (s :: ·) := by
  rw [List.mapM_cons]
  cases value.text? with
  | none => rfl
  | some s => cases values.mapM Value.text? <;> rfl

/-- **The elements of a list are read up to its end** if all of them are texts. -/
theorem readStringsFrom_answers {values : List Value} {text : List Char}
    (h : AreElements values text) {steps : Nat} (hsteps : values.length ≤ steps)
    {first : Bool} {cur : Cursor} {rest : List Char}
    (hcur : InFront first cur (text ++ ']' :: rest)) (before : List String) :
    Answers (readStringsFrom (steps + 1) first before cur)
      ((values.mapM Value.text?).map (before.reverse ++ ·)) rest := by
  -- Each element takes one step, so the bound falls with their number.
  induction values generalizing text steps first cur before with
  | nil => cases h
  | cons value values ih =>
      obtain ⟨steps, rfl⟩ := Nat.exists_eq_add_one_of_ne_zero (Nat.ne_zero_of_lt hsteps)
      have hstart := h.startsItem.append (']' :: rest)
      rw [mapM_text?_cons, Option.map_bind]
      cases h with
      | last hfirst =>
          refine readStringsFrom_first hfirst hcur hstart fun s behind p hbehind => ?_
          have hend := readStringsFrom_end steps false (s :: before) hbehind rest p
          simpa using hend
      | @more _ _ text others hfirst hothers =>
          rw [List.append_assoc, List.cons_append] at hcur hstart
          refine readStringsFrom_first hfirst hcur hstart fun s behind p hbehind => ?_
          have hrest := ih hothers (Nat.le_of_succ_le_succ hsteps) (.further hbehind p)
            (s :: before)
          simpa [Function.comp_def] using hrest

theorem readStrings_of_ne {spaces : List Char} (hspaces : AreSpaces spaces) {c : Char}
    (hc : isSpace c = false) (hopen : c ≠ '[') (rest : List Char) (p : Position) :
    readStrings ⟨spaces ++ c :: rest, p⟩ = refuse "a sequence" ⟨c :: rest, p.afterAll spaces⟩ := by
  rw [readStrings, skipSpace_before hspaces hc]
  split <;> simp_all

/-- **A list of texts is read, and anything else is refused.** -/
theorem readStrings_answers {value : Value} {spaces text : List Char}
    (hspaces : AreSpaces spaces) (h : IsValue value text) (rest : List Char) (p : Position) :
    Answers (readStrings ⟨spaces ++ (text ++ rest), p⟩) value.texts? rest := by
  obtain ⟨c, tail, htext, hstart⟩ := h.start
  cases h with
  | @emptyList inner hinner =>
      rw [List.cons_append, List.append_assoc, readStrings, skipSpace_before hspaces rfl]
      exact readStringsFrom_end _ true [] hinner rest _
  | @list values inner helements =>
      have hsteps : values.length ≤ (inner ++ ']' :: rest).length + 1 := by
        have hlength := helements.length_le
        rw [List.length_append]
        omega
      have hfront : InFront true ⟨inner ++ ']' :: rest, (p.afterAll spaces).after '['⟩
          (inner ++ ']' :: rest) := .first _
      have hread := readStringsFrom_answers helements hsteps hfront []
      rw [List.cons_append, List.append_assoc, readStrings, skipSpace_before hspaces rfl]
      simpa [Value.texts?] using hread
  | null | yes | no | number | string | emptyObject | object =>
      have hopen : c ≠ '[' := by
        rintro rfl
        simp [Value.StartsWith] at hstart
      rw [htext, List.cons_append, readStrings_of_ne hspaces hstart.isSpace_eq_false hopen]
      exact refuse_answers _ _ _

/-! ### Settings -/

/-- **Settings with one setting taken from a value**, if the value fits. -/
def assign? (file : Settings) (value : Value) : Field → Option Settings
  | .confidence => value.fraction?.map fun x => { file with confidence := x }
  | .ignore => value.texts?.map fun ss => { file with ignore := ss }
  | .length =>
    (value.natural? UInt64.size).map fun n => { file with length := UInt64.ofNat n }
  | .complexity =>
    (value.natural? UInt32.size).map fun n => { file with complexity := UInt32.ofNat n }
  | .prune => value.texts?.map fun ss => { file with prune := ss }
  | .quiet => value.truth?.map fun b => { file with quiet := b }
  | .skip => value.texts?.map fun ss => { file with skip := ss }

/-- **The value of a setting is read into the settings** if it fits, and refused otherwise. -/
theorem readField_answers (file : Settings) (field : Field) {value : Value}
    {spaces text : List Char} (hspaces : AreSpaces spaces) (h : IsValue value text)
    {rest : List Char} (hrest : EndsNumber rest) (p : Position) :
    Answers (readField file field ⟨spaces ++ (text ++ rest), p⟩) (file.assign? value field)
      rest := by
  have hstrings := readStrings_answers hspaces h rest p
  cases field with
  | confidence => exact (readFloat_answers hspaces h hrest p).bind_ok fun _ _ => rfl
  | ignore | prune | skip => exact hstrings.bind_ok fun _ _ => rfl
  | length =>
      exact (readWhole_answers "usize" le_rfl hspaces h hrest p).bind_ok fun _ _ => rfl
  | complexity =>
      have hbound : UInt32.size ≤ wordLimit := by decide
      exact (readWhole_answers "u32" hbound hspaces h hrest p).bind_ok fun _ _ => rfl
  | quiet => exact (readBool_answers hspaces h rest p).bind_ok fun _ _ => rfl

/-- White space behind the value of a setting is left to be read. -/
theorem readField_element (file : Settings) (field : Field) {value : Value} {text : List Char}
    (h : IsElement value text) {rest : List Char} (hrest : EndsNumber rest) (p : Position) :
    ∃ behind, AreSpaces behind ∧
      Answers (readField file field ⟨text ++ rest, p⟩) (file.assign? value field)
        (behind ++ rest) := by
  cases h with
  | @spaced _ before text behind hbefore hvalue hbehind =>
      refine ⟨behind, hbehind, ?_⟩
      have hread :=
        readField_answers file field hbefore hvalue (hbehind.endsNumber hrest) p
      simpa only [List.append_assoc] using hread

end LintSuite.Settings
