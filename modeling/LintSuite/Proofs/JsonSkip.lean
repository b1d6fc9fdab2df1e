import LintSuite.Proofs.JsonGrammar

/-!
# Skipping a value

A value that nobody asked for is skipped, and skipping reads just the value, however deeply it is
nested (`skipValue_element`).  The reader of the settings depends on that: behind an unknown member it
goes on where the member ends.

Strings and numbers are skipped in one go (`skipText_parts`, `skipNumber_numeral`).  Lists and objects
are skipped by a machine with a stack of open containers, which takes at most two steps for each
character of the text.  `SkipsValue` says what the machine does with a value on top of any stack, and
`SkipsItems` what it does with the rest of an open container; the grammar builds the one from the
other, constructor by constructor (`IsValue.skips`).

A number ends where something stands behind it that cannot belong to it (`EndsNumber`).

### Design decisions

**A machine with a stack, seen from the top.**  The skipping of nested values does not call itself but
keeps open containers on a stack, and counts its steps.  `SkipsValue` quantifies over the stack and
over what is left of the steps, so that a value is skipped as one move, whatever it stands in; an
induction over the grammar then never looks below the top of the stack.

**Steps are paid for by characters.**  Skipping a text takes some number of steps, which is bounded by
twice its length, and the bounds add up as texts do.  So the steps that the machine is given for a
whole text are enough, and no proof counts them exactly.

### What is load-bearing

Lists and objects are the same to the machine up to the key in front of a value.  Items are therefore
treated together (`SkipsItems`), and what is peculiar to a member is one lemma about its key.
-/

namespace LintSuite.Json

/-! ### Cursors behind a text -/

/-- **A step reads up to a rest**: it succeeds, with the rest left to read. -/
def ReadsTo (result : Except Fault Cursor) (rest : List Char) : Prop :=
  ∃ p, result = .ok ⟨rest, p⟩

theorem skipSpace_append {spaces : List Char} (h : AreSpaces spaces) (rest : List Char)
    (p : Position) :
    (⟨spaces ++ rest, p⟩ : Cursor).skipSpace =
      (⟨rest, p.afterAll spaces⟩ : Cursor).skipSpace := by
  induction spaces generalizing p with
  | nil => rfl
  | cons c spaces ih =>
      rw [List.cons_append, Cursor.skipSpace_of_isSpace (h c List.mem_cons_self),
        ih fun d hd => h d (List.mem_cons_of_mem _ hd)]
      rfl

theorem readWord_append (word rest : List Char) (p : Position) :
    readWord ⟨word ++ rest, p⟩ word = .ok ⟨rest, p.afterAll word⟩ := by
  induction word generalizing p with
  | nil => rfl
  | cons c word ih =>
      rw [List.cons_append, readWord]
      simp only [if_true]
      exact ih (p.after c)

/-! ### Strings -/

theorem shortEscape?_of_mem {e c : Char} (h : (e, c) ∈ shortEscapes) :
    e ≠ 'u' ∧ shortEscape? e = some c := by
  simp only [shortEscapes, List.mem_cons, Prod.mk.injEq, List.not_mem_nil, or_false] at h
  rcases h with ⟨rfl, rfl⟩ | ⟨rfl, rfl⟩ | ⟨rfl, rfl⟩ | ⟨rfl, rfl⟩ | ⟨rfl, rfl⟩ | ⟨rfl, rfl⟩ |
    ⟨rfl, rfl⟩ | ⟨rfl, rfl⟩ <;> exact ⟨by decide, rfl⟩

theorem IsHexDigit.hexValue? {c : Char} {value : Nat} (h : IsHexDigit c value) :
    hexValue? c = some value := by
  obtain h | h := h
  all_goals
    have hlt : value < 16 := (List.getElem?_eq_some_iff.mp h).1
    interval_cases value <;> (cases h; rfl)

section Digits

variable {a b c d : Char} {va vb vc vd : Nat} (ha : IsHexDigit a va) (hb : IsHexDigit b vb)
  (hc : IsHexDigit c vc) (hd : IsHexDigit d vd) {strict : Bool} {high : Option Nat}

include ha hb hc hd

/-- Behind the digits of an escape that means something the reading goes on. -/
theorem readTextFrom_digits {next : TextState} {chars : List Char}
    (hvalue : escapeValue strict (((va * 16 + vb) * 16 + vc) * 16 + vd) high = .ok (next, chars))
    (before rest : List Char) (p : Position) :
    readTextFrom strict (.digits 4 0 high) before p (a :: b :: c :: d :: rest) =
      readTextFrom strict next (chars ++ before) (p.afterAll [a, b, c, d]) rest := by
  simp [readTextFrom, ha.hexValue?, hb.hexValue?, hc.hexValue?, hd.hexValue?, hvalue]

/-- An escape that means nothing is refused behind its digits. -/
theorem readTextFrom_digits_of_error {cause : Cause}
    (hvalue : escapeValue strict (((va * 16 + vb) * 16 + vc) * 16 + vd) high = .error cause)
    (before rest : List Char) (p : Position) :
    readTextFrom strict (.digits 4 0 high) before p (a :: b :: c :: d :: rest) =
      .error ⟨cause, p.afterAll [a, b, c, d]⟩ := by
  simp [readTextFrom, ha.hexValue?, hb.hexValue?, hc.hexValue?, hd.hexValue?, hvalue]

end Digits

/-- **A part of a string is skipped**, whatever it means. -/
theorem skip_part {part : StringPart} {text : List Char} (h : IsPart part text)
    (before rest : List Char) (p : Position) :
    ∃ read q, readTextFrom false .plain before p (text ++ rest) =
      readTextFrom false .plain read q rest := by
  cases h with
  | @plain c hcontrol hquote hslash =>
      refine ⟨c :: before, p.after c, ?_⟩
      rw [List.singleton_append, readTextFrom]
      simp only [hquote, hslash, Nat.not_lt.mpr hcontrol, if_false]
  | @short e c hmem =>
      obtain ⟨hu, hvalue⟩ := shortEscape?_of_mem hmem
      refine ⟨c :: before, (p.after '\\').after e, ?_⟩
      simp only [List.cons_append, List.nil_append, readTextFrom, hu, hvalue, if_true, if_false,
        reduceCtorEq, Char.reduceEq]
  | @unit a b c d va vb vc vd ha hb hc hd =>
      refine ⟨before, ((p.after '\\').after 'u').afterAll [a, b, c, d], ?_⟩
      have hvalue : escapeValue false (((va * 16 + vb) * 16 + vc) * 16 + vd) none =
          .ok (.plain, []) := rfl
      simp only [List.cons_append, List.nil_append, readTextFrom, if_true, if_false, Char.reduceEq]
      exact readTextFrom_digits ha hb hc hd hvalue before rest _

/-- **A string is skipped up to its closing quote.** -/
theorem skipText_parts {parts : List StringPart} {text : List Char} (h : AreParts parts text)
    (rest : List Char) (p : Position) : ReadsTo (skipText ⟨text ++ '"' :: rest, p⟩) rest := by
  have hfrom : ∀ before p, ∃ read q,
      readTextFrom false .plain before p (text ++ '"' :: rest) = .ok (read, ⟨rest, q⟩) := by
    induction h with
    | nil =>
        intro before p
        exact ⟨_, _, rfl⟩
    | cons hpart _ ih =>
        intro before p
        rw [List.append_assoc]
        obtain ⟨read, q, hread⟩ := skip_part hpart before _ p
        rw [hread]
        exact ih read q
  obtain ⟨read, q, hread⟩ := hfrom [] p
  refine ⟨q, ?_⟩
  rw [skipText]
  simp only [hread]

/-! ### Numbers -/

/-- What follows a number: nothing that could be a part of it. -/
def EndsNumber (rest : List Char) : Prop :=
  ∀ c ∈ rest.head?, c.isDigit = false ∧ c ≠ '.' ∧ c ≠ 'e' ∧ c ≠ 'E'

/-- No digit follows. -/
def EndsDigits (rest : List Char) : Prop := ∀ c ∈ rest.head?, c.isDigit = false

theorem EndsNumber.endsDigits {rest : List Char} (h : EndsNumber rest) : EndsDigits rest :=
  fun c hc => (h c hc).1

/-- Digits are read as far as they go. -/
theorem digitRun_append {ds : List Char} (hds : ds.all Char.isDigit = true) {rest : List Char}
    (hrest : EndsDigits rest) (p : Position) : digitRun ⟨ds ++ rest, p⟩ = ds := by
  rw [digitRun, List.takeWhile_append_of_pos (List.all_eq_true.mp hds)]
  cases rest with
  | nil => simp
  | cons c rest => rw [List.takeWhile_cons_of_neg (by simp [hrest c rfl]), List.append_nil]

/-- The first of some digits. -/
theorem AreDigits.exists_cons {ds : List Char} (h : AreDigits ds) :
    ∃ d others, ds = d :: others ∧ d.isDigit = true := by
  obtain ⟨d, others, rfl⟩ := List.exists_cons_of_ne_nil h.1
  have hall := h.2
  rw [List.all_cons, Bool.and_eq_true] at hall
  exact ⟨d, others, rfl, hall.1⟩

/-- What may stand behind the digits of a number ends the digits. -/
theorem endsDigits_placesText (places : Option (List Char)) {rest : List Char}
    (hrest : EndsDigits rest) : EndsDigits (placesText places ++ rest) := by
  cases places with
  | none => exact hrest
  | some ds =>
      rintro c ⟨⟩
      rfl

/-- The mark of an exponent ends the digits in front of it. -/
theorem IsExponent.endsDigits {e : Option (Bool × List Char)} {text rest : List Char}
    (h : IsExponent e text) (hrest : EndsDigits rest) : EndsDigits (text ++ rest) := by
  cases h with
  | absent => exact hrest
  | bare hmark | plus hmark | minus hmark =>
      rintro c ⟨⟩
      obtain rfl | rfl := hmark <;> rfl

theorem ne_of_isDigit {c d : Char} (hc : c.isDigit = true) (hd : d.isDigit = false) : c ≠ d := by
  rintro rfl
  rw [hc] at hd
  cases hd

/-- **An exponent is absent, or its digits stand behind its mark and its sign.** -/
theorem IsExponent.absent_or_marked {e : Option (Bool × List Char)} {text : List Char}
    (h : IsExponent e text) (hdigits : ∀ x ∈ e, AreDigits x.2) :
    (e = none ∧ text = []) ∨
      ∃ below ds mark tail, e = some (below, ds) ∧ AreDigits ds ∧ text = mark :: tail ∧
        (mark = 'e' ∨ mark = 'E') ∧
          ∀ rest p, ∃ q, exponentSign ⟨tail ++ rest, p⟩ = (below, ⟨ds ++ rest, q⟩) := by
  cases h with
  | absent => exact .inl ⟨rfl, rfl⟩
  | @bare mark ds hmark =>
      have hds := hdigits _ rfl
      refine .inr ⟨false, ds, mark, ds, rfl, hds, rfl, hmark, fun rest p => ⟨p, ?_⟩⟩
      obtain ⟨d, others, rfl, hd⟩ := hds.exists_cons
      rw [List.cons_append, exponentSign_cons, if_neg (ne_of_isDigit hd rfl),
        if_neg (ne_of_isDigit hd rfl)]
  | @plus mark ds hmark =>
      exact .inr ⟨false, ds, mark, '+' :: ds, rfl, hdigits _ rfl, rfl, hmark,
        fun rest p => ⟨p.after '+', rfl⟩⟩
  | @minus mark ds hmark =>
      exact .inr ⟨true, ds, mark, '-' :: ds, rfl, hdigits _ rfl, rfl, hmark,
        fun rest p => ⟨p.after '-', rfl⟩⟩

theorem skipExponent_eq (cur : Cursor) :
    skipExponent cur =
      match (exponentSign cur).2.rest with
      | [] => (exponentSign cur).2.fault .malformedNumber
      | c :: _ =>
        if c.isDigit then .ok ((exponentSign cur).2.past (digitRun (exponentSign cur).2))
        else .error ⟨.malformedNumber, (exponentSign cur).2.position.afterByte c⟩ := by
  obtain ⟨rest, p⟩ := cur
  cases rest with
  | nil => rfl
  | cons c rest =>
      by_cases hplus : c = '+'
      · subst hplus
        rfl
      by_cases hminus : c = '-'
      · subst hminus
        rfl
      · simp [skipExponent, exponentSign, hplus, hminus]

/-- The digits of an exponent are skipped behind its sign. -/
theorem skipExponent_digits {cur : Cursor} {below : Bool} {ds rest : List Char} {p : Position}
    (hsign : exponentSign cur = (below, ⟨ds ++ rest, p⟩)) (hds : AreDigits ds)
    (hrest : EndsDigits rest) : skipExponent cur = .ok ⟨rest, p.afterAll ds⟩ := by
  have hrun := digitRun_append hds.2 hrest p
  rw [skipExponent_eq, hsign]
  simp only [hrun, Cursor.past_append]
  obtain ⟨d, others, rfl, hd⟩ := hds.exists_cons
  simp only [List.cons_append, hd, if_true]

theorem skipNumberEnd_cons (c : Char) (rest : List Char) (p : Position) :
    skipNumberEnd ⟨c :: rest, p⟩ =
      if c = 'e' ∨ c = 'E' then skipExponent ⟨rest, p.after c⟩ else .ok ⟨c :: rest, p⟩ := by
  by_cases hmark : c = 'e' ∨ c = 'E'
  · obtain rfl | rfl := hmark <;> rfl
  · rw [if_neg hmark, skipNumberEnd]
    split <;> simp_all

/-- **An exponent is skipped**, if there is one. -/
theorem skipNumberEnd_exponent {e : Option (Bool × List Char)} {text : List Char}
    (h : IsExponent e text) (hdigits : ∀ x ∈ e, AreDigits x.2) {rest : List Char}
    (hrest : EndsNumber rest) (p : Position) : ReadsTo (skipNumberEnd ⟨text ++ rest, p⟩) rest := by
  obtain ⟨rfl, rfl⟩ | ⟨below, ds, mark, tail, rfl, hds, rfl, hmark, hsign⟩ :=
    h.absent_or_marked hdigits
  · cases rest with
    | nil => exact ⟨p, rfl⟩
    | cons c rest =>
        obtain ⟨-, -, he, hE⟩ := hrest c rfl
        refine ⟨p, ?_⟩
        rw [List.nil_append, skipNumberEnd_cons, if_neg (by simp [he, hE])]
  · obtain ⟨q, hq⟩ := hsign rest (p.after mark)
    rw [List.cons_append, skipNumberEnd_cons, if_pos hmark]
    exact ⟨_, skipExponent_digits hq hds hrest.endsDigits⟩

/-- What `skipNumber` does behind the digits in front of a point. -/
def skipPlaces (behind : Cursor) : Except Fault Cursor :=
  match behind.rest with
  | '.' :: _ =>
    let point := behind.next
    let run := digitRun point
    if run.isEmpty then point.faultNext .malformedNumber else skipNumberEnd (point.past run)
  | _ => skipNumberEnd behind

theorem skipPlaces_point (rest : List Char) (p : Position) :
    skipPlaces ⟨'.' :: rest, p⟩ =
      if (digitRun ⟨rest, p.after '.'⟩).isEmpty then
        (⟨rest, p.after '.'⟩ : Cursor).faultNext .malformedNumber
      else skipNumberEnd ((⟨rest, p.after '.'⟩ : Cursor).past (digitRun ⟨rest, p.after '.'⟩)) := rfl

theorem skipPlaces_of_ne {rest : List Char} (h : rest.head? ≠ some '.') (p : Position) :
    skipPlaces ⟨rest, p⟩ = skipNumberEnd ⟨rest, p⟩ := by
  rw [skipPlaces]
  split
  · next heq =>
      simp only at heq
      exact absurd (by rw [heq]; rfl) h
  · rfl

/-- No point follows the digits of a number that has no digits behind one. -/
theorem IsExponent.head?_ne {e : Option (Bool × List Char)} {text rest : List Char}
    (h : IsExponent e text) (hrest : EndsNumber rest) : (text ++ rest).head? ≠ some '.' := by
  cases h with
  | absent => exact fun hpoint => (hrest '.' hpoint).2.1 rfl
  | bare hmark | plus hmark | minus hmark =>
      obtain rfl | rfl := hmark <;> simp

theorem EndsDigits.head?_isDigit {rest : List Char} (h : EndsDigits rest) :
    (rest.head?.map Char.isDigit).getD false = false := by
  cases rest with
  | nil => rfl
  | cons c rest => exact h c rfl

/-- **The first digits of a number are skipped** as far as they go. -/
theorem skipNumber_whole (n : Numeral) {rest : List Char} (hrest : EndsDigits rest)
    (p : Position) :
    skipNumber ⟨n.whole ++ rest, p⟩ = skipPlaces ⟨rest, p.afterAll n.whole⟩ := by
  obtain ⟨d, ds, hwhole, hd⟩ := n.whole_digits.exists_cons
  by_cases hzero : d = '0'
  · have honly : n.whole = ['0'] := n.whole_zero (by rw [hwhole, hzero]; rfl)
    rw [honly, List.singleton_append, skipNumber]
    simp only [hrest.head?_isDigit]
    rfl
  · have hrun := digitRun_append n.whole_digits.2 hrest p
    have hpast : (⟨n.whole ++ rest, p⟩ : Cursor).past n.whole = ⟨rest, p.afterAll n.whole⟩ :=
      Cursor.past_append n.whole
    rw [hwhole] at hrun hpast ⊢
    rw [List.cons_append] at hrun hpast ⊢
    rw [skipNumber]
    simp only [hd, hzero, hrun, hpast, Bool.not_true, Bool.false_eq_true, decide_false,
      Bool.false_and, if_false]
    rfl

/-- **A number is skipped**, behind its sign. -/
theorem skipNumber_numeral (n : Numeral) {exponent : List Char}
    (hexponent : IsExponent n.exponent exponent) {rest : List Char} (hrest : EndsNumber rest)
    (p : Position) :
    ReadsTo (skipNumber ⟨n.whole ++ (placesText n.places ++ (exponent ++ rest)), p⟩) rest := by
  have hbehind := hexponent.endsDigits hrest.endsDigits
  rw [skipNumber_whole n (endsDigits_placesText n.places hbehind)]
  cases hplaces : n.places with
  | none =>
      rw [placesText, List.nil_append, skipPlaces_of_ne (hexponent.head?_ne hrest)]
      exact skipNumberEnd_exponent hexponent n.exponent_digits hrest _
  | some ds =>
      have hds := n.places_digits ds hplaces
      have hrun := digitRun_append hds.2 hbehind
      have hsome : ds.isEmpty = false := by
        rw [List.isEmpty_eq_false_iff]
        exact hds.1
      rw [placesText, List.cons_append, skipPlaces_point, hrun]
      simp only [hsome, Bool.false_eq_true, if_false, Cursor.past_append]
      exact skipNumberEnd_exponent hexponent n.exponent_digits hrest _

/-! ### Values without parts -/

/-- The values without parts. -/
def Value.IsLeaf : Value → Prop
  | .list _ | .object _ => False
  | _ => True

theorem skipLeaf_digit {d : Char} (hd : d.isDigit = true) (rest : List Char) (p : Position) :
    skipLeaf ⟨d :: rest, p⟩ = (skipNumber ⟨d :: rest, p⟩).map some := by
  have hn : d ≠ 'n' := ne_of_isDigit hd rfl
  have ht : d ≠ 't' := ne_of_isDigit hd rfl
  have hf : d ≠ 'f' := ne_of_isDigit hd rfl
  have hminus : d ≠ '-' := ne_of_isDigit hd rfl
  simp only [skipLeaf, hn, ht, hf, hminus, hd, if_true, if_false]

/-- **A value without parts is skipped.** -/
theorem skipLeaf_leaf {value : Value} {text : List Char} (h : IsValue value text)
    (hleaf : value.IsLeaf) {rest : List Char} (hrest : EndsNumber rest) (p : Position) :
    ∃ q, skipLeaf ⟨text ++ rest, p⟩ = .ok (some ⟨rest, q⟩) := by
  cases h with
  | null => exact ⟨_, congrArg (Except.map some) (readWord_append ['u', 'l', 'l'] rest _)⟩
  | yes => exact ⟨_, congrArg (Except.map some) (readWord_append ['r', 'u', 'e'] rest _)⟩
  | no => exact ⟨_, congrArg (Except.map some) (readWord_append ['a', 'l', 's', 'e'] rest _)⟩
  | @string _ inner hparts =>
      obtain ⟨q, hskip⟩ := skipText_parts hparts rest (p.after '"')
      refine ⟨q, ?_⟩
      rw [List.cons_append, List.append_assoc]
      exact congrArg (Except.map some) hskip
  | @number n _ hnumber =>
      obtain ⟨exponent, hexponent, rfl⟩ := hnumber
      obtain ⟨d, ds, hwhole, hd⟩ := n.whole_digits.exists_cons
      simp only [List.append_assoc]
      cases hsign : n.negative with
      | true =>
          obtain ⟨q, hskip⟩ := skipNumber_numeral n hexponent hrest (p.after '-')
          exact ⟨q, congrArg (Except.map some) hskip⟩
      | false =>
          obtain ⟨q, hskip⟩ := skipNumber_numeral n hexponent hrest p
          refine ⟨q, ?_⟩
          rw [hwhole] at hskip ⊢
          exact (skipLeaf_digit hd _ p).trans (congrArg (Except.map some) hskip)
  | emptyList | list | emptyObject | object => exact hleaf.elim

/-! ### The machine -/

/-- What the machine does behind a value: it stops, unless a container is open. -/
def resume (steps : Nat) (stack : List Container) (cur : Cursor) : Except Fault Cursor :=
  if stack.isEmpty then .ok cur else skipFrom steps (.between true) stack cur

/-- The machine in front of an element or a member of an open container. -/
def skipItem (steps : Nat) (top : Container) (stack : List Container) (cur : Cursor) :
    Except Fault Cursor :=
  skipKey cur top >>= skipFrom steps .value (top :: stack)

/-- **The machine skips a text as a value**, up to white space and within two steps for each
character but one. -/
def SkipsValue (text : List Char) : Prop :=
  ∃ k, k + 2 ≤ 2 * text.length ∧ ∀ steps stack rest p, EndsNumber rest →
    ∃ behind q, AreSpaces behind ∧
      skipFrom (steps + k + 1) .value stack ⟨text ++ rest, p⟩ =
        resume steps stack ⟨behind ++ rest, q⟩

/-- The machine skips a text as an element or a member of a container. -/
def SkipsItem (top : Container) (text : List Char) : Prop :=
  ∃ k, k + 2 ≤ 2 * text.length ∧ ∀ steps stack rest p, EndsNumber rest →
    ∃ behind q, AreSpaces behind ∧
      skipItem (steps + k + 1) top stack ⟨text ++ rest, p⟩ =
        skipFrom steps (.between true) (top :: stack) ⟨behind ++ rest, q⟩

/-- The machine skips a text as the elements or members of a container, and the end of the
container behind them. -/
def SkipsItems (top : Container) (text : List Char) : Prop :=
  ∃ k, k + 1 ≤ 2 * text.length ∧ ∀ steps stack rest p,
    ∃ q, skipItem (steps + k + 1) top stack ⟨text ++ top.closing :: rest, p⟩ =
      resume steps stack ⟨rest, q⟩

/-- The step that skips a value without parts. -/
theorem skipsValue_leaf {value : Value} {text : List Char} (h : IsValue value text)
    (hleaf : value.IsLeaf) : SkipsValue text := by
  obtain ⟨c, tail, htext, hstart⟩ := h.start
  refine ⟨0, by rw [htext, List.length_cons]; omega, ?_⟩
  intro steps stack rest p hrest
  obtain ⟨q, hskip⟩ := skipLeaf_leaf h hleaf hrest p
  refine ⟨[], q, by decide, ?_⟩
  have hspace : (⟨text ++ rest, p⟩ : Cursor).skipSpace = ⟨text ++ rest, p⟩ := by
    rw [htext]
    exact Cursor.skipSpace_of_not_isSpace hstart.isSpace_eq_false
  rw [skipFrom, hspace, hskip]
  rfl

theorem AreSpaces.endsNumber {spaces rest : List Char} (h : AreSpaces spaces)
    (hrest : EndsNumber rest) : EndsNumber (spaces ++ rest) := by
  cases spaces with
  | nil => exact hrest
  | cons c spaces =>
      rintro d ⟨⟩
      have hspace := h c List.mem_cons_self
      simp only [isSpace, Bool.or_eq_true, beq_iff_eq] at hspace
      obtain ((rfl | rfl) | rfl) | rfl := hspace <;> decide

theorem AreSpaces.append {cs ds : List Char} (hcs : AreSpaces cs) (hds : AreSpaces ds) :
    AreSpaces (cs ++ ds) := by
  intro c hc
  rcases List.mem_append.mp hc with h | h
  · exact hcs c h
  · exact hds c h

/-- In front of a value the machine skips white space. -/
theorem skipFrom_value_congr {cur other : Cursor} (h : cur.skipSpace = other.skipSpace)
    (steps : Nat) (stack : List Container) :
    skipFrom (steps + 1) .value stack cur = skipFrom (steps + 1) .value stack other := by
  rw [skipFrom, skipFrom, h]

/-- **White space around a value is skipped with it.** -/
theorem SkipsValue.spaced {before text behind : List Char} (hbefore : AreSpaces before)
    (h : SkipsValue text) (hbehind : AreSpaces behind) :
    SkipsValue (before ++ (text ++ behind)) := by
  obtain ⟨k, hk, hskip⟩ := h
  refine ⟨k, by simp only [List.length_append]; omega, ?_⟩
  intro steps stack rest p hrest
  obtain ⟨more, q, hmore, hread⟩ :=
    hskip steps stack (behind ++ rest) (p.afterAll before) (hbehind.endsNumber hrest)
  refine ⟨more ++ behind, q, hmore.append hbehind, ?_⟩
  simp only [List.append_assoc]
  rw [skipFrom_value_congr (skipSpace_append hbefore _ p), hread]

/-- An element of a list is a value. -/
theorem SkipsValue.skipsItem {text : List Char} (h : SkipsValue text) : SkipsItem .list text := by
  obtain ⟨k, hk, hskip⟩ := h
  exact ⟨k, hk, fun steps stack rest p hrest => hskip steps (.list :: stack) rest p hrest⟩

/-- A colon is read, with the white space in front of it. -/
theorem readColon_append {spaces : List Char} (h : AreSpaces spaces) (rest : List Char)
    (p : Position) :
    readColon ⟨spaces ++ ':' :: rest, p⟩ = .ok ⟨rest, (p.afterAll spaces).after ':'⟩ := by
  rw [readColon, skipSpace_append h, Cursor.skipSpace_of_not_isSpace rfl]
  rfl

/-- Behind a key the value of a member stands behind a colon. -/
theorem skipKey_member {key : List StringPart} {before name behind : List Char}
    (hbefore : AreSpaces before) (hkey : AreParts key name) (hbehind : AreSpaces behind)
    (rest : List Char) (p : Position) :
    ReadsTo (skipKey
      ⟨before ++ '"' :: (name ++ '"' :: (behind ++ ':' :: rest)), p⟩ .object) rest := by
  obtain ⟨q, hskip⟩ := skipText_parts hkey (behind ++ ':' :: rest) ((p.afterAll before).after '"')
  refine ⟨(q.afterAll behind).after ':', ?_⟩
  rw [skipKey, skipSpace_append hbefore, Cursor.skipSpace_of_not_isSpace rfl]
  simp only [Cursor.next_cons, hskip, bind, Except.bind]
  exact readColon_append hbehind rest q

/-- **A member of an object is skipped** with its key. -/
theorem skipsItem_member {key : List StringPart} {before name behind text : List Char}
    (hbefore : AreSpaces before) (hkey : AreParts key name) (hbehind : AreSpaces behind)
    (h : SkipsValue text) :
    SkipsItem .object (before ++ '"' :: (name ++ '"' :: (behind ++ ':' :: text))) := by
  obtain ⟨k, hk, hskip⟩ := h
  refine ⟨k, by simp only [List.length_append, List.length_cons]; omega, ?_⟩
  intro steps stack rest p hrest
  obtain ⟨q, hcolon⟩ := skipKey_member hbefore hkey hbehind (text ++ rest) p
  obtain ⟨more, q', hmore, hread⟩ := hskip steps (.object :: stack) rest q hrest
  refine ⟨more, q', hmore, ?_⟩
  simp only [List.append_assoc, List.cons_append, skipItem, hcolon, bind, Except.bind]
  exact hread

theorem endsNumber_comma (rest : List Char) : EndsNumber (',' :: rest) := by
  rintro c ⟨⟩
  decide

/-! ### Containers -/

/-- The character that opens a container. -/
def Container.opening : Container → Char
  | .list => '['
  | .object => '\x7b'

theorem Container.isSpace_closing (top : Container) : isSpace top.closing = false := by
  cases top <;> rfl

theorem Container.closing_ne (top : Container) : top.closing ≠ ',' := by
  cases top <;> decide

theorem Container.endsNumber_closing (top : Container) (rest : List Char) :
    EndsNumber (top.closing :: rest) := by
  rintro c ⟨⟩
  cases top <;> decide

/-- A container that opens is put on the stack. -/
theorem skipFrom_opening (top : Container) (steps : Nat) (stack : List Container)
    (rest : List Char) (p : Position) :
    skipFrom (steps + 1) .value stack ⟨top.opening :: rest, p⟩ =
      skipFrom steps (.between false) (top :: stack) ⟨rest, p.after top.opening⟩ := by
  cases top <;> rfl

/-- A container that is closed is taken off the stack. -/
theorem skipFrom_closing (top : Container) {spaces : List Char} (hspaces : AreSpaces spaces)
    (behindValue : Bool) (steps : Nat) (stack : List Container) (rest : List Char)
    (p : Position) :
    ∃ q, skipFrom (steps + 1) (.between behindValue) (top :: stack)
      ⟨spaces ++ top.closing :: rest, p⟩ = resume steps stack ⟨rest, q⟩ := by
  refine ⟨(p.afterAll spaces).after top.closing, ?_⟩
  rw [skipFrom, skipSpace_append hspaces, Cursor.skipSpace_of_not_isSpace top.isSpace_closing]
  simp only [top.closing_ne, decide_false, Bool.and_false, Bool.false_eq_true, if_false, if_true]
  rfl

/-- Behind a comma the next element or member follows. -/
theorem skipFrom_comma (top : Container) {spaces : List Char} (hspaces : AreSpaces spaces)
    (steps : Nat) (stack : List Container) (rest : List Char) (p : Position) :
    skipFrom (steps + 1) (.between true) (top :: stack) ⟨spaces ++ ',' :: rest, p⟩ =
      skipItem steps top stack ⟨rest, (p.afterAll spaces).after ','⟩ := by
  rw [skipFrom, skipSpace_append hspaces, Cursor.skipSpace_of_not_isSpace rfl]
  rfl

/-- A text that starts an element or a member: a character that does not close the container is the
first one behind white space. -/
def StartsItem (top : Container) (text : List Char) : Prop :=
  ∃ spaces c rest, text = spaces ++ c :: rest ∧ AreSpaces spaces ∧ isSpace c = false ∧
    c ≠ top.closing

theorem StartsItem.append {top : Container} {text : List Char} (h : StartsItem top text)
    (more : List Char) : StartsItem top (text ++ more) := by
  obtain ⟨spaces, c, rest, rfl, hspaces, hc, hne⟩ := h
  exact ⟨spaces, c, rest ++ more, by simp, hspaces, hc, hne⟩

/-- The first element or member of a container is skipped like the others. -/
theorem skipFrom_first {top : Container} {text : List Char} (h : StartsItem top text)
    (steps : Nat) (stack : List Container) (p : Position) :
    skipFrom (steps + 2) (.between false) (top :: stack) ⟨text, p⟩ =
      skipItem (steps + 1) top stack ⟨text, p⟩ := by
  obtain ⟨spaces, c, rest, rfl, hspaces, hc, hne⟩ := h
  have hspace := skipSpace_append hspaces (c :: rest) p
  have hstay : (⟨c :: rest, p.afterAll spaces⟩ : Cursor).skipSpace =
      ⟨c :: rest, p.afterAll spaces⟩ := Cursor.skipSpace_of_not_isSpace hc
  rw [skipFrom, hspace, hstay]
  simp only [Bool.false_and, Bool.false_eq_true, if_false, hne]
  cases top with
  | list => exact skipFrom_value_congr (hstay.trans (hspace.trans hstay).symm) steps _
  | object =>
      rw [skipItem, skipKey, skipKey, hspace]

/-- The last element or member is skipped, and the end of the container behind it. -/
theorem SkipsItem.last {top : Container} {text : List Char} (h : SkipsItem top text) :
    SkipsItems top text := by
  obtain ⟨k, hk, hskip⟩ := h
  refine ⟨k + 1, by omega, ?_⟩
  intro steps stack rest p
  obtain ⟨behind, q, hbehind, hread⟩ :=
    hskip (steps + 1) stack (top.closing :: rest) p (top.endsNumber_closing rest)
  obtain ⟨q', hclose⟩ := skipFrom_closing top hbehind true steps stack rest q
  refine ⟨q', ?_⟩
  have hsteps : steps + (k + 1) + 1 = steps + 1 + k + 1 := by omega
  rw [hsteps, hread, hclose]

/-- An element or member is skipped, and what follows it behind a comma. -/
theorem SkipsItem.more {top : Container} {text others : List Char} (h : SkipsItem top text)
    (hothers : SkipsItems top others) : SkipsItems top (text ++ ',' :: others) := by
  obtain ⟨k, hk, hskip⟩ := h
  obtain ⟨j, hj, hskips⟩ := hothers
  refine ⟨k + j + 2, by simp only [List.length_append, List.length_cons]; omega, ?_⟩
  intro steps stack rest p
  obtain ⟨behind, q, hbehind, hread⟩ :=
    hskip (steps + j + 1 + 1) stack _ p (endsNumber_comma (others ++ top.closing :: rest))
  obtain ⟨q', hrest⟩ := hskips steps stack rest ((q.afterAll behind).after ',')
  refine ⟨q', ?_⟩
  have hsteps : steps + (k + j + 2) + 1 = steps + j + 1 + 1 + k + 1 := by omega
  rw [List.append_assoc, List.cons_append, hsteps, hread, skipFrom_comma top hbehind, hrest]

/-- **A container with elements or members is skipped.** -/
theorem SkipsItems.container {top : Container} {text : List Char} (h : SkipsItems top text)
    (hstart : StartsItem top text) : SkipsValue (top.opening :: (text ++ [top.closing])) := by
  obtain ⟨k, hk, hskip⟩ := h
  refine ⟨k + 2, by simp only [List.length_append, List.length_cons, List.length_nil]; omega, ?_⟩
  intro steps stack rest p _
  obtain ⟨q, hread⟩ := hskip steps stack rest (p.after top.opening)
  refine ⟨[], q, by decide, ?_⟩
  have hfirst := skipFrom_first (hstart.append (top.closing :: rest)) (steps + k) stack
    (p.after top.opening)
  rw [List.cons_append, List.append_assoc, List.singleton_append, skipFrom_opening,
    ← Nat.add_assoc, hfirst, hread, List.nil_append]

/-- **An empty container is skipped.** -/
theorem skipsValue_empty (top : Container) {spaces : List Char} (h : AreSpaces spaces) :
    SkipsValue (top.opening :: (spaces ++ [top.closing])) := by
  refine ⟨1, by simp only [List.length_append, List.length_cons, List.length_nil]; omega, ?_⟩
  intro steps stack rest p _
  obtain ⟨q, hclose⟩ := skipFrom_closing top h false steps stack rest (p.after top.opening)
  refine ⟨[], q, by decide, ?_⟩
  rw [List.cons_append, List.append_assoc, List.singleton_append, skipFrom_opening, hclose,
    List.nil_append]

/-! ### Values -/

/-- No value starts with the end of a list. -/
theorem IsElement.startsItem {value : Value} {text : List Char} (h : IsElement value text) :
    StartsItem .list text := by
  cases h with
  | @spaced _ before _ behind hbefore hvalue _ =>
      obtain ⟨c, rest, rfl, hstart⟩ := hvalue.start
      refine ⟨before, c, rest ++ behind, rfl, hbefore, hstart.isSpace_eq_false, ?_⟩
      rintro rfl
      cases value with
      | truth b => cases b <;> cases hstart
      | number n => cases hstart <;> contradiction
      | null | string | list | object => cases hstart

theorem IsMember.startsItem {member : List StringPart × Value} {text : List Char}
    (h : IsMember member text) : StartsItem .object text := by
  cases h with
  | colon hbefore => exact ⟨_, _, _, rfl, hbefore, rfl, by decide⟩

theorem AreElements.startsItem {values : List Value} {text : List Char}
    (h : AreElements values text) : StartsItem .list text := by
  cases h with
  | last hfirst => exact hfirst.startsItem
  | more hfirst _ => exact hfirst.startsItem.append _

theorem AreMembers.startsItem {members : Members} {text : List Char}
    (h : AreMembers members text) : StartsItem .object text := by
  cases h with
  | last hfirst => exact hfirst.startsItem
  | more hfirst _ => exact hfirst.startsItem.append _

-- One case for each way to write a value: the machine follows the grammar.
mutual

/-- **Every value is skipped.** -/
theorem IsValue.skips {value : Value} {text : List Char} (h : IsValue value text) :
    SkipsValue text :=
  match h with
  | .null => skipsValue_leaf .null trivial
  | .yes => skipsValue_leaf .yes trivial
  | .no => skipsValue_leaf .no trivial
  | .number hnumber => skipsValue_leaf (.number hnumber) trivial
  | .string hparts => skipsValue_leaf (.string hparts) trivial
  | .emptyList hspaces => skipsValue_empty .list hspaces
  | .list helements => helements.skips.container helements.startsItem
  | .emptyObject hspaces => skipsValue_empty .object hspaces
  | .object hmembers => hmembers.skips.container hmembers.startsItem

theorem IsElement.skips {value : Value} {text : List Char} (h : IsElement value text) :
    SkipsValue text :=
  match h with
  | .spaced hbefore hvalue hbehind => hvalue.skips.spaced hbefore hbehind

theorem AreElements.skips {values : List Value} {text : List Char}
    (h : AreElements values text) : SkipsItems .list text :=
  match h with
  | .last hfirst => hfirst.skips.skipsItem.last
  | .more hfirst hrest => hfirst.skips.skipsItem.more hrest.skips

theorem IsMember.skips {member : List StringPart × Value} {text : List Char}
    (h : IsMember member text) : SkipsItem .object text :=
  match h with
  | .colon hbefore hkey hbehind hvalue => skipsItem_member hbefore hkey hbehind hvalue.skips

theorem AreMembers.skips {members : Members} {text : List Char} (h : AreMembers members text) :
    SkipsItems .object text :=
  match h with
  | .last hfirst => hfirst.skips.last
  | .more hfirst hrest => hfirst.skips.more hrest.skips

end

/-- **Skipping a value reads just the value**, however deeply it is nested, and stops at the white
space behind it at the latest. -/
theorem skipValue_element {value : Value} {text : List Char} (h : IsElement value text)
    {rest : List Char} (hrest : EndsNumber rest) (p : Position) :
    ∃ behind, AreSpaces behind ∧ ReadsTo (skipValue ⟨text ++ rest, p⟩) (behind ++ rest) := by
  obtain ⟨k, hk, hskip⟩ := h.skips
  have hsteps : 2 * (text ++ rest).length + 2 =
      (2 * (text ++ rest).length + 1 - k) + k + 1 := by
    rw [List.length_append]
    omega
  obtain ⟨behind, q, hbehind, hread⟩ :=
    hskip (2 * (text ++ rest).length + 1 - k) [] rest p hrest
  refine ⟨behind, hbehind, q, ?_⟩
  rw [skipValue, hsteps, hread]
  rfl

end LintSuite.Json
