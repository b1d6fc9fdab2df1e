import LintSuite.Proofs.JsonSkip
import LintSuite.Proofs.Outcomes

/-!
# What is skipped is a value

The converse of the skipping of values: whatever is skipped without a fault is a text of the grammar
(`isElement_of_skipValue`).  Nothing that only looks like a value is let through.

Each reader takes a text off the front of a cursor, so each lemma says what that text is, with the
cursor behind it left to the next reader.  A string is read character by character; what a state of
the reading stands for is the text of the part that has been begun (`TextState.Begun`), and a step
either goes on with the part or completes it (`readTextFrom_step`).

The machine for containers is seen from in front of an item or from behind one: what it reads there
is the rest of the innermost container (`IsRest`).  That a value and the rest of a container are read
is shown in one induction on the steps that are left (`skipFrom_skipsOnly`), as the machine enters a
container in front of its first item and comes back behind its last one.

### Design decisions

**Texts are recovered from cursors.**  A cursor knows what is left to read.  What was read is the
difference of two cursors, and each lemma says that it is a text of the grammar, followed by what the
second cursor has left.  So lemmas compose by appending.

**Reading reduces to skipping.**  A number that is read as a value passes over the same characters as
one that is skipped (`skipNumber_of_readNumber`).  That what is passed over is a number of the grammar
has to be shown for skipping alone.

### What is load-bearing

`IsRest.cons`: an item in front of the rest of a container is the rest of that container.  In the
induction on steps it is where the text of a value and the text behind it are put together, for both
kinds of containers.
-/

namespace LintSuite.Json

/-! ### Cursors -/

/-- Characters that are read as far as a test holds stand in front of the rest. -/
theorem Cursor.rest_eq_takeWhile_append (cur : Cursor) (test : Char → Bool) :
    cur.rest = cur.rest.takeWhile test ++ (cur.past (cur.rest.takeWhile test)).rest :=
  (List.prefix_iff_eq_append.mp (List.takeWhile_prefix test)).symm

theorem Cursor.rest_eq_digitRun_append (cur : Cursor) :
    cur.rest = digitRun cur ++ (cur.past (digitRun cur)).rest :=
  cur.rest_eq_takeWhile_append Char.isDigit

/-- White space that is skipped stood in front. -/
theorem Cursor.exists_areSpaces (cur : Cursor) :
    ∃ spaces, AreSpaces spaces ∧ cur.rest = spaces ++ cur.skipSpace.rest :=
  ⟨_, fun _ hc => List.mem_takeWhile_imp hc, cur.rest_eq_takeWhile_append isSpace⟩

theorem Cursor.rest_eq_cons_next {cur : Cursor} {c : Char} {tail : List Char}
    (h : cur.rest = c :: tail) : cur.rest = c :: cur.next.rest := by
  rw [Cursor.next, h]

theorem rest_of_readWord {word : List Char} {cur behind : Cursor}
    (h : readWord cur word = .ok behind) : cur.rest = word ++ behind.rest := by
  induction word generalizing cur with
  | nil =>
      cases h
      rfl
  | cons w word ih =>
      rw [readWord] at h
      split at h
      · cases h
      · next c tail hrest =>
        split at h
        · next hc =>
          rw [Cursor.rest_eq_cons_next hrest, hc, ih h, List.cons_append]
        · cases h

/-! ### Strings -/

theorem isHexDigit_of_toNat {c : Char} {first : Nat} (base count : Nat)
    (hall : ∀ n < count, IsHexDigit (Char.ofNat (first + n)) (base + n))
    (hle : first ≤ c.toNat) (hlt : c.toNat < first + count) :
    IsHexDigit c (c.toNat - first + base) := by
  have hc := hall (c.toNat - first) (by omega)
  rwa [Nat.add_sub_cancel' hle, Char.ofNat_toNat, Nat.add_comm] at hc

/-- A hexadecimal digit that is read is one. -/
theorem isHexDigit_of_hexValue? {c : Char} {value : Nat} (h : hexValue? c = some value) :
    IsHexDigit c value := by
  rw [hexValue?] at h
  split_ifs at h with hdigit hsmall hlarge
  · cases h
    simp only [Char.isDigit, Bool.and_eq_true, decide_eq_true_eq, UInt32.le_iff_toNat_le] at hdigit
    exact isHexDigit_of_toNat 0 10 (by decide) hdigit.1 (Nat.lt_succ_of_le hdigit.2)
  · cases h
    simp only [Bool.and_eq_true, decide_eq_true_eq, Char.le_def, UInt32.le_iff_toNat_le] at hsmall
    exact isHexDigit_of_toNat 10 6 (by decide) hsmall.1 (Nat.lt_succ_of_le hsmall.2)
  · cases h
    simp only [Bool.and_eq_true, decide_eq_true_eq, Char.le_def, UInt32.le_iff_toNat_le] at hlarge
    exact isHexDigit_of_toNat 10 6 (by decide) hlarge.1 (Nat.lt_succ_of_le hlarge.2)

theorem mem_shortEscapes_of_shortEscape? {e c : Char} (h : shortEscape? e = some c) :
    (e, c) ∈ shortEscapes := by
  rw [shortEscape?] at h
  split_ifs at h with hsame
  · cases h
    simp only [Bool.or_eq_true, beq_iff_eq] at hsame
    obtain (rfl | rfl) | rfl := hsame <;> decide
  all_goals
    cases h
    simp_all [shortEscapes]

/-- **What has been read of a part of a string** in a state of the reading. -/
def TextState.Begun : TextState → List Char → Prop
  | .plain, begun | .paired _, begun => begun = []
  | .escaped, begun | .pairEscaped _, begun => begun = ['\\']
  | .digits left _ _, begun =>
    ∃ ds, begun = '\\' :: 'u' :: ds ∧ 0 < left ∧ ds.length + left = 4 ∧
      ∀ d ∈ ds, ∃ value, IsHexDigit d value

theorem begun_plain : TextState.plain.Begun [] := rfl

/-- Four digits complete an escape. -/
theorem exists_isPart_of_digits {ds : List Char} (hlength : ds.length = 4)
    (hds : ∀ d ∈ ds, ∃ value, IsHexDigit d value) :
    ∃ part, IsPart part ('\\' :: 'u' :: ds) := by
  match ds, hlength with
  | [a, b, c, d], _ =>
      simp only [List.forall_mem_cons] at hds
      obtain ⟨⟨va, ha⟩, ⟨vb, hb⟩, ⟨vc, hc⟩, ⟨vd, hd⟩, -⟩ := hds
      exact ⟨_, .unit ha hb hc hd⟩

/-- Behind an escape no part has been begun. -/
theorem begun_of_escapeValue {strict : Bool} {n : Nat} {high : Option Nat} {next : TextState}
    {chars : List Char} (h : escapeValue strict n high = .ok (next, chars)) : next.Begun [] := by
  cases high with
  | none =>
      simp only [escapeValue] at h
      split_ifs at h <;> (cases h; rfl)
  | some high =>
      simp only [escapeValue] at h
      split_ifs at h
      cases h
      rfl

/-- **One character of a string**: the quote ends it, and any other character goes on with the part
that has been begun or completes it. -/
theorem readTextFrom_step {strict : Bool} {state : TextState} {begun : List Char}
    (hbegun : state.Begun begun) {before : List Char} {p : Position} {c : Char}
    {rest : List Char} {result : List Char × Cursor}
    (h : readTextFrom strict state before p (c :: rest) = .ok result) :
    (begun = [] ∧ c = '"' ∧ result.2.rest = rest) ∨
      ∃ next before' q, readTextFrom strict next before' q rest = .ok result ∧
        (next.Begun (begun ++ [c]) ∨ (next.Begun [] ∧ ∃ part, IsPart part (begun ++ [c]))) := by
  cases state with
  | plain =>
      obtain rfl := hbegun
      rw [readTextFrom] at h
      split_ifs at h with hquote hslash hcontrol
      · cases h
        exact .inl ⟨rfl, hquote, rfl⟩
      · exact .inr ⟨_, _, _, h, .inl (hslash ▸ rfl)⟩
      · exact .inr ⟨_, _, _, h, .inr ⟨rfl, _, .plain (Nat.le_of_not_lt hcontrol) hquote hslash⟩⟩
  | escaped =>
      obtain rfl := hbegun
      rw [readTextFrom] at h
      split_ifs at h with hu
      · exact .inr ⟨_, _, _, h, .inl ⟨[], by rw [hu]; rfl, by decide, rfl, by simp⟩⟩
      · split at h
        · next e he =>
          exact .inr ⟨_, _, _, h, .inr ⟨rfl, _, .short (mem_shortEscapes_of_shortEscape? he)⟩⟩
        · cases h
  | digits left value high =>
      obtain ⟨ds, rfl, hleft, hlength, hds⟩ := hbegun
      rw [readTextFrom] at h
      dsimp only at h
      split at h
      · cases h
      · next d hd =>
        have hall : ∀ d ∈ ds ++ [c], ∃ value, IsHexDigit d value := by
          simpa [or_imp, forall_and] using ⟨hds, d, isHexDigit_of_hexValue? hd⟩
        -- Of the digits only their number matters: any four make a part.
        split_ifs at h with hmore
        · refine .inr ⟨_, _, _, h, .inl ⟨ds ++ [c], rfl, by omega, ?_, hall⟩⟩
          rw [List.length_append, List.length_singleton]
          omega
        · split at h
          · next next chars hvalue =>
            have hfour : (ds ++ [c]).length = 4 := by
              rw [List.length_append, List.length_singleton]
              omega
            exact .inr ⟨_, _, _, h,
              .inr ⟨begun_of_escapeValue hvalue, exists_isPart_of_digits hfour hall⟩⟩
          · cases h
  | paired high =>
      obtain rfl := hbegun
      rw [readTextFrom] at h
      split_ifs at h with hslash
      exact .inr ⟨_, _, _, h, .inl (hslash ▸ rfl)⟩
  | pairEscaped high =>
      obtain rfl := hbegun
      rw [readTextFrom] at h
      split_ifs at h with hu
      exact .inr ⟨_, _, _, h, .inl ⟨[], by rw [hu]; rfl, by decide, rfl, by simp⟩⟩

/-- **A string that is read is one**: with what has been begun, the parts up to the closing quote. -/
theorem areParts_of_readTextFrom {strict : Bool} {state : TextState} {begun : List Char}
    (hbegun : state.Begun begun) {before : List Char} {p : Position} {cs : List Char}
    {result : List Char × Cursor} (h : readTextFrom strict state before p cs = .ok result) :
    ∃ parts text, AreParts parts (begun ++ text) ∧ cs = text ++ '"' :: result.2.rest := by
  -- The part that has been begun is carried along; it is empty again when the quote comes.
  induction cs generalizing state begun before p with
  | nil => cases state <;> cases h
  | cons c cs ih =>
      obtain ⟨rfl, rfl, rfl⟩ | ⟨next, before', q, hread, hnext | ⟨hnext, part, hpart⟩⟩ :=
        readTextFrom_step hbegun h
      · exact ⟨[], [], .nil, rfl⟩
      · obtain ⟨parts, text, hparts, rfl⟩ := ih hnext hread
        rw [List.append_assoc] at hparts
        exact ⟨parts, c :: text, hparts, rfl⟩
      · obtain ⟨parts, text, hparts, rfl⟩ := ih hnext hread
        refine ⟨part :: parts, c :: text, ?_, rfl⟩
        have hmore := AreParts.cons hpart hparts
        rwa [List.append_assoc, List.nil_append] at hmore

theorem areParts_of_readText {cur behind : Cursor} {s : String}
    (h : readText cur = .ok (s, behind)) :
    ∃ parts text, AreParts parts text ∧ cur.rest = text ++ '"' :: behind.rest := by
  rw [readText] at h
  split at h
  · next cs after hread =>
    cases h
    exact areParts_of_readTextFrom begun_plain hread
  · cases h

theorem areParts_of_skipText {cur behind : Cursor} (h : skipText cur = .ok behind) :
    ∃ parts text, AreParts parts text ∧ cur.rest = text ++ '"' :: behind.rest := by
  rw [skipText] at h
  split at h
  · next cs after hread =>
    cases h
    exact areParts_of_readTextFrom begun_plain hread
  · cases h

/-! ### Numbers -/

/-- The first digits of a number, behind its sign: a zero stands alone. -/
theorem isNumeral_of_parts (negative : Bool) {whole : List Char} {places : Option (List Char)}
    {e : Option (Bool × List Char)} {exponent : List Char} (hwhole : AreDigits whole)
    (hzero : whole.head? = some '0' → whole = ['0']) (hplaces : ∀ ds ∈ places, AreDigits ds)
    (hdigits : ∀ x ∈ e, AreDigits x.2) (hexponent : IsExponent e exponent) :
    ∃ n, IsNumeral n (signText negative ++ (whole ++ (placesText places ++ exponent))) :=
  ⟨⟨negative, whole, places, e, hwhole, hzero, hplaces, hdigits⟩, exponent, hexponent, rfl⟩

theorem areDigits_digitRun {cur : Cursor} (h : digitRun cur ≠ []) : AreDigits (digitRun cur) :=
  ⟨h, List.all_eq_true.mpr fun _ hc => List.mem_takeWhile_imp hc⟩

theorem areDigits_digitRun_of_cons {cur : Cursor} {c : Char} {tail : List Char}
    (hrest : cur.rest = c :: tail) (hc : c.isDigit = true) : AreDigits (digitRun cur) := by
  refine areDigits_digitRun ?_
  rw [digitRun, hrest, List.takeWhile_cons_of_pos hc]
  exact List.cons_ne_nil _ _

/-- The sign of an exponent, in front of its digits. -/
theorem isExponent_of_exponentSign (cur : Cursor) {mark : Char} (hmark : mark = 'e' ∨ mark = 'E') :
    ∃ sign, cur.rest = sign ++ (exponentSign cur).2.rest ∧
      ∀ ds, IsExponent (some ((exponentSign cur).1, ds)) (mark :: (sign ++ ds)) := by
  obtain ⟨rest, p⟩ := cur
  cases rest with
  | nil => exact ⟨[], rfl, fun _ => .bare hmark⟩
  | cons c rest =>
      rw [exponentSign_cons]
      split_ifs with hplus hminus
      · exact ⟨['+'], by rw [hplus]; rfl, fun _ => .plus hmark⟩
      · exact ⟨['-'], by rw [hminus]; rfl, fun _ => .minus hmark⟩
      · exact ⟨[], rfl, fun _ => .bare hmark⟩

theorem isExponent_of_skipExponent {cur behind : Cursor} (h : skipExponent cur = .ok behind)
    {mark : Char} (hmark : mark = 'e' ∨ mark = 'E') :
    ∃ e text, IsExponent e (mark :: text) ∧ (∀ x ∈ e, AreDigits x.2) ∧
      cur.rest = text ++ behind.rest := by
  obtain ⟨sign, hsign, hexponent⟩ := isExponent_of_exponentSign cur hmark
  rw [skipExponent_eq] at h
  split at h
  · cases h
  · next c tail hrest =>
    split_ifs at h with hc
    cases h
    refine ⟨_, _, hexponent (digitRun (exponentSign cur).2), ?_, ?_⟩
    · rintro _ ⟨⟩
      exact areDigits_digitRun_of_cons hrest hc
    · rw [List.append_assoc, ← Cursor.rest_eq_digitRun_append, ← hsign]

/-- **An exponent that is skipped is one**, or there is none. -/
theorem isExponent_of_skipNumberEnd {cur behind : Cursor} (h : skipNumberEnd cur = .ok behind) :
    ∃ e text, IsExponent e text ∧ (∀ x ∈ e, AreDigits x.2) ∧ cur.rest = text ++ behind.rest := by
  obtain ⟨rest, p⟩ := cur
  cases rest with
  | nil =>
      cases h
      exact ⟨none, [], .absent, by simp, rfl⟩
  | cons c rest =>
      rw [skipNumberEnd_cons] at h
      split_ifs at h with hmark
      · obtain ⟨e, text, hexponent, hdigits, hrest⟩ := isExponent_of_skipExponent h hmark
        exact ⟨e, c :: text, hexponent, hdigits, congrArg (c :: ·) hrest⟩
      · cases h
        exact ⟨none, [], .absent, by simp, rfl⟩

/-- What is skipped behind the first digits of a number belongs to it. -/
theorem isExponent_of_skipPlaces {cur behind : Cursor} (h : skipPlaces cur = .ok behind) :
    ∃ places e text, (∀ ds ∈ places, AreDigits ds) ∧ IsExponent e text ∧
      (∀ x ∈ e, AreDigits x.2) ∧ cur.rest = placesText places ++ (text ++ behind.rest) := by
  obtain ⟨rest, p⟩ := cur
  by_cases hpoint : rest.head? = some '.'
  · obtain ⟨rest, rfl⟩ := List.head?_eq_some_iff.mp hpoint
    rw [skipPlaces_point] at h
    split_ifs at h with hnone
    · cases h
    · obtain ⟨e, text, hexponent, hdigits, hrest⟩ := isExponent_of_skipNumberEnd h
      refine ⟨some (digitRun ⟨rest, p.after '.'⟩), e, text, ?_, hexponent, hdigits, ?_⟩
      · rintro _ ⟨⟩
        exact areDigits_digitRun fun hnil => hnone (List.isEmpty_iff.mpr hnil)
      · rw [placesText, ← hrest, List.cons_append, ← Cursor.rest_eq_digitRun_append]
  · rw [skipPlaces_of_ne hpoint] at h
    obtain ⟨e, text, hexponent, hdigits, hrest⟩ := isExponent_of_skipNumberEnd h
    exact ⟨none, e, text, by simp, hexponent, hdigits, hrest⟩

theorem skipNumber_cons (c : Char) (rest : List Char) (p : Position) :
    skipNumber ⟨c :: rest, p⟩ =
      if !c.isDigit then .error ⟨.malformedNumber, p.afterByte c⟩
      else if c = '0' then
        if (rest.head?.map Char.isDigit).getD false then
          (⟨rest, p.after '0'⟩ : Cursor).faultNext .malformedNumber
        else skipPlaces ⟨rest, p.after '0'⟩
      else skipPlaces ((⟨c :: rest, p⟩ : Cursor).past (digitRun ⟨c :: rest, p⟩)) := by
  by_cases hzero : c = '0'
  · subst hzero
    rfl
  · rw [if_neg hzero]
    simp only [skipNumber, hzero, decide_false, Bool.false_and, if_false]
    rfl

/-- **A number that is skipped is one**, with the sign that stands in front of it. -/
theorem isNumeral_of_skipNumber {cur behind : Cursor} (h : skipNumber cur = .ok behind)
    (negative : Bool) :
    ∃ n text, IsNumeral n (signText negative ++ text) ∧ cur.rest = text ++ behind.rest := by
  obtain ⟨rest, p⟩ := cur
  cases rest with
  | nil => cases h
  | cons c rest =>
      rw [skipNumber_cons] at h
      split_ifs at h with hc hzero hmore
      · cases h
      · obtain ⟨places, e, text, hplaces, hexponent, hdigits, hrest⟩ := isExponent_of_skipPlaces h
        have hwhole : AreDigits ['0'] := by decide
        obtain ⟨n, hn⟩ := isNumeral_of_parts negative hwhole (fun _ => rfl) hplaces hdigits hexponent
        refine ⟨n, _, hn, ?_⟩
        simp only at hrest
        rw [hzero, hrest, List.append_assoc, List.append_assoc]
        rfl
      · obtain ⟨places, e, text, hplaces, hexponent, hdigits, hrest⟩ := isExponent_of_skipPlaces h
        have hdigit : c.isDigit = true := by simpa using hc
        have hhead : (digitRun ⟨c :: rest, p⟩).head? = some c := by
          rw [digitRun, List.takeWhile_cons_of_pos hdigit, List.head?_cons]
        have hfirst : (digitRun ⟨c :: rest, p⟩).head? = some '0' →
            digitRun ⟨c :: rest, p⟩ = ['0'] := by
          intro hzero'
          rw [hhead, Option.some.injEq] at hzero'
          exact absurd hzero' hzero
        obtain ⟨n, hn⟩ := isNumeral_of_parts negative
          (areDigits_digitRun_of_cons rfl hdigit) hfirst hplaces hdigits hexponent
        refine ⟨n, _, hn, ?_⟩
        rw [List.append_assoc, List.append_assoc, ← hrest, ← Cursor.rest_eq_digitRun_append]

/-! ### Numbers that are read -/

theorem cursor_of_fractionOf {negative : Bool} {digits : Nat} {e : Int} {cur behind : Cursor}
    {x : Number} (h : fractionOf negative digits e cur = .ok (x, behind)) : behind = cur := by
  rw [fractionOf] at h
  split at h <;> cases h
  rfl

theorem skipExponent_of_readExponent {negative : Bool} {digits : Nat} {start : Int}
    {cur behind : Cursor} {x : Number}
    (h : readExponent negative digits start cur = .ok (x, behind)) :
    skipExponent cur = .ok behind := by
  rw [readExponent_eq, readExponentDigits] at h
  cases hrest : (exponentSign cur).2.rest with
  | nil =>
      simp only [hrest] at h
      cases h
  | cons c tail =>
      simp only [hrest] at h
      rw [skipExponent_eq, hrest]
      dsimp only
      by_cases hdigit : c.isDigit = true
      · simp only [hdigit, Bool.not_true, Bool.false_eq_true, if_false] at h
        rw [if_pos hdigit]
        split at h
        · rw [cursor_of_fractionOf h]
        · split at h <;> cases h
          rfl
      · simp only [hdigit] at h
        cases h

theorem skipNumberEnd_of_readFractionEnd {negative : Bool} {digits : Nat} {e : Int}
    {cur behind : Cursor} {x : Number}
    (h : readFractionEnd negative digits e cur = .ok (x, behind)) :
    skipNumberEnd cur = .ok behind := by
  obtain ⟨rest, p⟩ := cur
  cases rest with
  | nil =>
      obtain rfl := cursor_of_fractionOf h
      rfl
  | cons c rest =>
      rw [readFractionEnd_cons] at h
      rw [skipNumberEnd_cons]
      split_ifs at h ⊢ with hmark
      · exact skipExponent_of_readExponent h
      · rw [cursor_of_fractionOf h]

theorem skipPlaces_of_readPlaces {negative : Bool} {digits : Nat} {start : Int}
    {rest : List Char} {p : Position} {behind : Cursor} {x : Number}
    (h : readPlaces negative digits start ⟨rest, p.after '.'⟩ = .ok (x, behind)) :
    skipPlaces ⟨'.' :: rest, p⟩ = .ok behind := by
  simp only [readPlaces] at h
  rw [skipPlaces_point]
  split_ifs at h ⊢ with hnone
  · cases rest <;> cases h
  · exact skipNumberEnd_of_readFractionEnd h

theorem skipPlaces_of_readNumberEnd {negative : Bool} {value : Nat} {left : List Char}
    {cur behind : Cursor} {x : Number}
    (h : readNumberEnd negative value left cur = .ok (x, behind)) :
    skipPlaces cur = .ok behind := by
  obtain ⟨rest, p⟩ := cur
  cases rest with
  | nil =>
      simp only [readNumberEnd] at h
      split at h
      · cases h
        rfl
      · rw [cursor_of_fractionOf h]
        rfl
  | cons c rest =>
      rw [readNumberEnd_cons] at h
      split_ifs at h with hpoint hmark hleft
      · subst hpoint
        exact skipPlaces_of_readPlaces h
      all_goals
        rw [skipPlaces_of_ne (by simpa using hpoint), skipNumberEnd_cons]
      · rw [if_pos hmark]
        exact skipExponent_of_readExponent h
      · cases h
        rw [if_neg hmark]
      · rw [if_neg hmark, cursor_of_fractionOf h]

/-- **What is read as a number is skipped as one**, up to the same place. -/
theorem skipNumber_of_readNumber {negative : Bool} {cur behind : Cursor} {x : Number}
    (h : readNumber negative cur = .ok (x, behind)) : skipNumber cur = .ok behind := by
  obtain ⟨rest, p⟩ := cur
  cases rest with
  | nil => cases h
  | cons c rest =>
      rw [readNumber_cons] at h
      rw [skipNumber_cons]
      split_ifs at h ⊢ with hc hzero hmore
      · cases h
      · exact skipPlaces_of_readNumberEnd h
      · exact skipPlaces_of_readNumberEnd h

/-! ### Items of a container -/

/-- The texts of an element of a list or of a member of an object. -/
def IsItem : Container → List Char → Prop
  | .list, text => ∃ value, IsElement value text
  | .object, text => ∃ member, IsMember member text

/-- The texts of the items of a container, which has one. -/
def AreItems : Container → List Char → Prop
  | .list, text => ∃ values, AreElements values text
  | .object, text => ∃ members, AreMembers members text

/-- The kind of container that a value is, if it has parts. -/
def Value.container? : Value → Option Container
  | .list _ => some .list
  | .object _ => some .object
  | _ => none

/-- A value without parts does not start like a container. -/
theorem Value.StartsWith.ne_opening {value : Value} {c : Char} (h : value.StartsWith c)
    (hleaf : value.container? = none) (top : Container) : c ≠ top.opening := by
  rintro rfl
  cases value with
  | truth b => cases top <;> cases b <;> cases h
  | number n => cases top <;> cases h <;> contradiction
  | null | string => cases top <;> cases h
  | list | object => cases hleaf

/-- **What is left of a container**, up to the character that closes it: in front of its first item
(`first`), or behind an item. -/
inductive IsRest (top : Container) : Bool → List Char → Prop where
  /-- No item follows. -/
  | close {first : Bool} {spaces : List Char} (h : AreSpaces spaces) : IsRest top first spaces
  /-- The first item follows. -/
  | first {items : List Char} (h : AreItems top items) : IsRest top true items
  /-- A further item follows behind a comma. -/
  | further {spaces items : List Char} (hspaces : AreSpaces spaces) (h : AreItems top items) :
      IsRest top false (spaces ++ ',' :: items)

/-- What stands in front of an item: a comma too, unless it is the first one. -/
def IsLead : Bool → List Char → Prop
  | true, lead => AreSpaces lead
  | false, lead => ∃ before behind, AreSpaces before ∧ AreSpaces behind ∧
      lead = before ++ ',' :: behind

section Items

variable {top : Container} {item text spaces : List Char}

theorem IsElement.append_spaces {value : Value} (h : IsElement value text)
    (hspaces : AreSpaces spaces) : IsElement value (text ++ spaces) := by
  cases h with
  | spaced hbefore hvalue hbehind =>
      have hmore := IsElement.spaced hbefore hvalue (hbehind.append hspaces)
      simpa only [List.append_assoc] using hmore

theorem IsElement.spaces_append {value : Value} (h : IsElement value text)
    (hspaces : AreSpaces spaces) : IsElement value (spaces ++ text) := by
  cases h with
  | spaced hbefore hvalue hbehind =>
      have hmore := IsElement.spaced (hspaces.append hbefore) hvalue hbehind
      simpa only [List.append_assoc] using hmore

theorem IsItem.append_spaces (h : IsItem top item) (hspaces : AreSpaces spaces) :
    IsItem top (item ++ spaces) := by
  cases top with
  | list =>
      obtain ⟨value, hvalue⟩ := h
      exact ⟨value, hvalue.append_spaces hspaces⟩
  | object =>
      obtain ⟨member, ⟨hbefore, hkey, hbehind, hvalue⟩⟩ := h
      have hmore := IsMember.colon hbefore hkey hbehind (hvalue.append_spaces hspaces)
      exact ⟨_, by simpa only [List.append_assoc, List.cons_append] using hmore⟩

theorem IsItem.spaces_append (h : IsItem top item) (hspaces : AreSpaces spaces) :
    IsItem top (spaces ++ item) := by
  cases top with
  | list =>
      obtain ⟨value, hvalue⟩ := h
      exact ⟨value, hvalue.spaces_append hspaces⟩
  | object =>
      obtain ⟨member, ⟨hbefore, hkey, hbehind, hvalue⟩⟩ := h
      have hmore := IsMember.colon (hspaces.append hbefore) hkey hbehind hvalue
      exact ⟨_, by simpa only [List.append_assoc] using hmore⟩

theorem IsItem.last (h : IsItem top item) : AreItems top item := by
  cases top with
  | list => exact h.imp' _ fun _ => .last
  | object => exact h.imp' _ fun _ => .last

theorem IsItem.more {items : List Char} (h : IsItem top item) (hitems : AreItems top items) :
    AreItems top (item ++ ',' :: items) := by
  cases top with
  | list =>
      obtain ⟨_, hfirst⟩ := h
      obtain ⟨_, hrest⟩ := hitems
      exact ⟨_, .more hfirst hrest⟩
  | object =>
      obtain ⟨_, hfirst⟩ := h
      obtain ⟨_, hrest⟩ := hitems
      exact ⟨_, .more hfirst hrest⟩

/-- An item and what is left behind it are items. -/
theorem IsRest.areItems (h : IsRest top false text) (hitem : IsItem top item) :
    AreItems top (item ++ text) := by
  cases h with
  | close hspaces => exact (hitem.append_spaces hspaces).last
  | further hspaces hitems =>
      have hmore := (hitem.append_spaces hspaces).more hitems
      rwa [List.append_assoc] at hmore

/-- **An item in front of what is left of a container** is left of it too. -/
theorem IsRest.cons (h : IsRest top false text) {first : Bool} {lead : List Char}
    (hlead : IsLead first lead) (hitem : IsItem top item) :
    IsRest top first (lead ++ (item ++ text)) := by
  cases first with
  | true =>
      have hitems := h.areItems (hitem.spaces_append hlead)
      rw [List.append_assoc] at hitems
      exact .first hitems
  | false =>
      obtain ⟨before, behind, hbefore, hbehind, rfl⟩ := hlead
      have hitems := h.areItems (hitem.spaces_append hbehind)
      rw [List.append_assoc] at hitems
      rw [List.append_assoc, List.cons_append]
      exact .further hbefore hitems

/-- **A container is a value**: what is left of it in front of its first item is all of it. -/
theorem IsRest.isValue (h : IsRest top true text) :
    ∃ value, value.container? = some top ∧ IsValue value (top.opening :: (text ++ [top.closing])) := by
  cases h with
  | close hspaces =>
      cases top with
      | list => exact ⟨.list [], rfl, .emptyList hspaces⟩
      | object => exact ⟨.object [], rfl, .emptyObject hspaces⟩
  | first hitems =>
      cases top with
      | list => exact hitems.elim fun values h => ⟨.list values, rfl, .list h⟩
      | object => exact hitems.elim fun members h => ⟨.object members, rfl, .object h⟩

end Items

/-! ### Values without parts -/

/-- A text that stands for a value as it is. -/
theorem IsValue.isElement {value : Value} {text : List Char} (h : IsValue value text) :
    IsElement value text := by
  have hplain := IsElement.spaced areSpaces_nil h areSpaces_nil
  rwa [List.nil_append, List.append_nil] at hplain

/-- **What is skipped in one step is a value without parts.** -/
theorem isValue_of_skipLeaf {cur behind : Cursor} (h : skipLeaf cur = .ok (some behind)) :
    ∃ value text, IsValue value text ∧ cur.rest = text ++ behind.rest := by
  rw [skipLeaf] at h
  split at h
  · cases h
  · next c tail hrest =>
    rw [Cursor.rest_eq_cons_next hrest]
    have hsome : ∀ {x : Except Fault Cursor}, x.map some = .ok (some behind) → x = .ok behind := by
      intro x hx
      obtain ⟨_, rfl, hsame⟩ := exists_of_map_eq_ok hx
      exact congrArg Except.ok (Option.some.inj hsame)
    split_ifs at h with hn ht hf hminus hdigit hquote hopen
    · exact ⟨_, _, .null, by rw [hn, rest_of_readWord (hsome h)]; rfl⟩
    · exact ⟨_, _, .yes, by rw [ht, rest_of_readWord (hsome h)]; rfl⟩
    · exact ⟨_, _, .no, by rw [hf, rest_of_readWord (hsome h)]; rfl⟩
    · obtain ⟨n, text, hn, htext⟩ := isNumeral_of_skipNumber (hsome h) true
      exact ⟨_, _, .number hn, by rw [hminus, htext]; rfl⟩
    · obtain ⟨n, text, hn, htext⟩ := isNumeral_of_skipNumber (hsome h) false
      exact ⟨_, _, .number hn, by rw [← Cursor.rest_eq_cons_next hrest, htext]; rfl⟩
    · obtain ⟨parts, text, hparts, htext⟩ := areParts_of_skipText (hsome h)
      exact ⟨_, _, .string hparts, by rw [hquote, htext]; simp⟩
    · cases h
    · cases h

theorem opening_of_skipLeaf {cur : Cursor} (h : skipLeaf cur = .ok none) :
    ∃ top : Container, cur.rest = top.opening :: cur.next.rest ∧
      (if cur.rest.head? = some '[' then Container.list else .object) = top := by
  rw [skipLeaf] at h
  split at h
  · cases h
  · next c tail hrest =>
    have hnone : ∀ {x : Except Fault Cursor}, x.map some ≠ .ok none := by
      intro x hx
      obtain ⟨_, -, hsame⟩ := exists_of_map_eq_ok hx
      cases hsame
    split_ifs at h with hn ht hf hminus hdigit hquote hopen
    iterate 6 exact absurd h hnone
    · simp only [Bool.or_eq_true, decide_eq_true_eq] at hopen
      rw [Cursor.rest_eq_cons_next hrest]
      obtain rfl | rfl := hopen
      · exact ⟨.list, rfl, rfl⟩
      · exact ⟨.object, rfl, rfl⟩
    · cases h

/-! ### The machine -/

theorem rest_of_readColon {cur behind : Cursor} (h : readColon cur = .ok behind) :
    ∃ spaces, AreSpaces spaces ∧ cur.rest = spaces ++ ':' :: behind.rest := by
  obtain ⟨spaces, hspaces, hrest⟩ := cur.exists_areSpaces
  refine ⟨spaces, hspaces, ?_⟩
  rw [readColon] at h
  split at h
  · cases h
  · next heq =>
    cases h
    rw [hrest, Cursor.rest_eq_cons_next heq]
  · cases h

/-- **Behind the key that is skipped a value stands**, and with the key it is an item. -/
theorem isItem_of_skipKey {top : Container} {cur behind : Cursor}
    (h : skipKey cur top = .ok behind) {value : Value} {text rest : List Char}
    (hvalue : IsElement value text) (hrest : behind.rest = text ++ rest) :
    ∃ item, IsItem top item ∧ cur.rest = item ++ rest := by
  cases top with
  | list =>
      cases h
      exact ⟨text, ⟨value, hvalue⟩, hrest⟩
  | object =>
      obtain ⟨before, hbefore, hcur⟩ := cur.exists_areSpaces
      simp only [skipKey] at h
      split at h
      · cases h
      · next heq =>
        obtain ⟨after, hskip, hread⟩ := exists_of_bind_eq_ok h
        obtain ⟨key, name, hkey, hname⟩ := areParts_of_skipText hskip
        obtain ⟨behind', hbehind, hcolon⟩ := rest_of_readColon hread
        refine ⟨_, ⟨_, .colon hbefore hkey hbehind hvalue⟩, ?_⟩
        rw [hcur, Cursor.rest_eq_cons_next heq, hname, hcolon, hrest]
        simp
      · cases h

/-- The machine in front of a value goes on behind it. -/
def SkipsOnlyValues (steps : Nat) : Prop :=
  ∀ ⦃stack cur behind⦄, skipFrom steps .value stack cur = .ok behind →
    ∃ value text, IsElement value text ∧ ∃ fewer < steps, ∃ mid : Cursor,
      cur.rest = text ++ mid.rest ∧ resume fewer stack mid = .ok behind

/-- The machine in a container goes on behind the end of the container. -/
def SkipsOnlyRests (steps : Nat) : Prop :=
  ∀ ⦃behindValue top stack cur behind⦄,
    skipFrom steps (.between behindValue) (top :: stack) cur = .ok behind →
      ∃ text, IsRest top (!behindValue) text ∧ ∃ fewer < steps, ∃ mid : Cursor,
        cur.rest = text ++ top.closing :: mid.rest ∧ resume fewer stack mid = .ok behind

/-- The machine in front of an item reads it and what is left of the container. -/
theorem isRest_of_skipItem {steps : Nat} (hvalue : SkipsOnlyValues steps)
    (hrest : ∀ fewer < steps, SkipsOnlyRests fewer) {top : Container} {stack : List Container}
    {cur behind : Cursor} (h : skipItem steps top stack cur = .ok behind) :
    ∃ item text, IsItem top item ∧ IsRest top false text ∧ ∃ fewer < steps, ∃ mid : Cursor,
      cur.rest = item ++ (text ++ top.closing :: mid.rest) ∧ resume fewer stack mid = .ok behind := by
  obtain ⟨start, hkey, hread⟩ := exists_of_bind_eq_ok h
  obtain ⟨value, text, helement, left, hleft, mid, hmid, hresume⟩ := hvalue hread
  obtain ⟨others, hothers, fewer, hfewer, last, hlast, hbehind⟩ := hrest left hleft hresume
  obtain ⟨item, hitem, hcur⟩ := isItem_of_skipKey hkey helement hmid
  exact ⟨item, others, hitem, hothers, fewer, hfewer.trans hleft, last, by rw [hcur, hlast],
    hbehind⟩

theorem skipsOnlyValues_succ {steps : Nat} (hrest : SkipsOnlyRests steps) :
    SkipsOnlyValues (steps + 1) := by
  intro stack cur behind h
  obtain ⟨spaces, hspaces, hcur⟩ := cur.exists_areSpaces
  rw [skipFrom] at h
  obtain ⟨leaf, hleaf, hread⟩ := exists_of_bind_eq_ok h
  cases leaf with
  | some mid =>
      obtain ⟨value, text, hvalue, htext⟩ := isValue_of_skipLeaf hleaf
      exact ⟨value, _, hvalue.isElement.spaces_append hspaces, steps, steps.lt_succ_self, mid,
        by rw [hcur, htext, List.append_assoc], hread⟩
  | none =>
      obtain ⟨top, hopen, htop⟩ := opening_of_skipLeaf hleaf
      simp only [htop] at hread
      obtain ⟨text, htext, fewer, hfewer, mid, hmid, hresume⟩ := hrest hread
      obtain ⟨value, -, hvalue⟩ := htext.isValue
      refine ⟨value, _, hvalue.isElement.spaces_append hspaces, fewer,
        hfewer.trans steps.lt_succ_self, mid, ?_, hresume⟩
      rw [hcur, hopen, hmid]
      simp

theorem skipsOnlyRests_succ {steps : Nat} (hvalue : SkipsOnlyValues steps)
    (hrest : ∀ fewer < steps, SkipsOnlyRests fewer) : SkipsOnlyRests (steps + 1) := by
  intro behindValue top stack cur behind h
  obtain ⟨spaces, hspaces, hcur⟩ := cur.exists_areSpaces
  rw [skipFrom] at h
  split at h
  · cases h
  · next c tail heq =>
    rw [Cursor.rest_eq_cons_next heq] at hcur
    by_cases hcomma : (behindValue && c = ',') = true
    · rw [if_pos hcomma] at h
      simp only [Bool.and_eq_true, decide_eq_true_eq] at hcomma
      obtain ⟨rfl, rfl⟩ := hcomma
      obtain ⟨item, text, hitem, htext, fewer, hfewer, mid, hmid, hresume⟩ :=
        isRest_of_skipItem hvalue hrest h
      have hlead : IsLead false (spaces ++ [',']) := ⟨spaces, [], hspaces, areSpaces_nil, rfl⟩
      refine ⟨_, htext.cons hlead hitem, fewer, hfewer.trans steps.lt_succ_self, mid, ?_, hresume⟩
      rw [hcur, hmid]
      simp
    rw [if_neg hcomma] at h
    by_cases hclose : c = top.closing
    · rw [if_pos hclose] at h
      exact ⟨spaces, .close hspaces, steps, steps.lt_succ_self, cur.skipSpace.next,
        by rw [hcur, hclose], h⟩
    rw [if_neg hclose] at h
    cases behindValue with
    | true => cases h
    | false =>
        obtain ⟨item, text, hitem, htext, fewer, hfewer, mid, hmid, hresume⟩ :=
          isRest_of_skipItem hvalue hrest h
        have hlead : IsLead true spaces := hspaces
        refine ⟨_, htext.cons hlead hitem, fewer, hfewer.trans steps.lt_succ_self, mid, ?_,
          hresume⟩
        rw [hcur, ← Cursor.rest_eq_cons_next heq, hmid]
        simp

/-- **The machine reads values.** -/
theorem skipFrom_skipsOnly (steps : Nat) : SkipsOnlyValues steps ∧ SkipsOnlyRests steps := by
  -- Behind an item the machine may be many steps further on, so all smaller numbers are needed.
  induction steps using Nat.strong_induction_on with
  | _ steps ih =>
      cases steps with
      | zero => exact ⟨fun _ _ _ h => (nomatch h), fun _ _ _ _ _ h => (nomatch h)⟩
      | succ steps =>
          obtain ⟨hvalue, hrest⟩ := ih steps steps.lt_succ_self
          exact ⟨skipsOnlyValues_succ hrest, skipsOnlyRests_succ hvalue fun fewer hfewer =>
            (ih fewer (hfewer.trans steps.lt_succ_self)).2⟩

/-- **What is skipped is a value**, with the white space around it. -/
theorem isElement_of_skipValue {cur behind : Cursor} (h : skipValue cur = .ok behind) :
    ∃ value text, IsElement value text ∧ cur.rest = text ++ behind.rest := by
  obtain ⟨value, text, hvalue, fewer, -, mid, hcur, hresume⟩ := (skipFrom_skipsOnly _).1 h
  cases hresume
  exact ⟨value, text, hvalue, hcur⟩

end LintSuite.Json
