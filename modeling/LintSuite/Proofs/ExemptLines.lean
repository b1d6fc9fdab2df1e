import LintSuite.LineLength.Scan
import Mathlib

/-!
# Which lines may run long

A line is exempt if it starts as a directive does, or if a block of tags ends it.  Such a block is a
list of pairs between two back-ticks (`EndsInBlock`); where the pairs are cut, and which of the
back-ticks are the two, is for the reader of the line to find.

The reading that is computed never looks back: it tries every back-tick and goes on from there
character by character.  What is left to read in each of its states is a language of its own
(`Remains`), and a step takes the first character off it (`remains_cons_iff`, one case for each
state).  No character can be read in two ways, so a line is read to its end exactly if the pairs can
be cut in some way (`completes_iff`).

A tab is read as a blank is, and a second blank leaves the state as it is, so nothing changes if
tabs are spelled out (`completes_expandTabs`).

### Main statements

* `completes_iff`: the machine accepts from a state exactly what may be left to read there.
* `endsInTags_iff`: trying every back-tick finds a block wherever it starts.
* `isExempt_iff_and_expandTabs`: the lines that may run long, and that tabs may be spelled out.

### Design decisions

**A language for each state.**  The grammar of a block says nothing of states, and the machine says
nothing of pairs.  `Remains` stands between them: it gives each state the texts that may follow, in
terms of pairs.  Then one equation for each state (`remains_cons_iff`) makes the equality of the machine
and the grammar an induction on the text, with nothing left to do in its step.

### What is load-bearing

`IsKeyLetter.not_sign`: a letter of a key is neither a blank nor a sign of the block.  This is why the
machine never has to look back.  A pattern for blocks would; that it finds the same lines is shown where
patterns are.
-/

namespace LintSuite.LineLength

open Text

/-! ### Pairs -/

/-- **A letter of a key**: a letter or a digit, both of ASCII, or one of three signs. -/
def IsKeyLetter (c : Char) : Prop :=
  ('A' ≤ c ∧ c ≤ 'Z') ∨ ('a' ≤ c ∧ c ≤ 'z') ∨ ('0' ≤ c ∧ c ≤ '9') ∨ c = '_' ∨ c = '.' ∨ c = '-'

theorem isKeyChar_iff {c : Char} : isKeyChar c = true ↔ IsKeyLetter c := by
  simp only [isKeyChar, IsKeyLetter, Char.isAlphanum, Char.isAlpha, Char.isUpper, Char.isLower,
    Char.isDigit, Bool.or_eq_true, Bool.and_eq_true, decide_eq_true_eq, beq_iff_eq, Char.le_def,
    ge_iff_le]
  tauto

/-- **A pair** of a key and a quoted value, with the blanks behind it. -/
inductive IsPair : List Char → Prop
  | mk {key value blanks : List Char} (ne_nil : key ≠ []) (letters : ∀ c ∈ key, IsKeyLetter c)
      (unquoted : '"' ∉ value) (blank : ∀ c ∈ blanks, isBlank c = true) :
      IsPair (key ++ (':' :: '"' :: (value ++ '"' :: blanks)))

/-- **A block of tags at the end of a line**: one pair or more between two back-ticks, and nothing
but blanks behind them. -/
inductive EndsInBlock : List Char → Prop
  | mk {front behind : List Char} {pairs : List (List Char)} (ne_nil : pairs ≠ [])
      (pair : ∀ p ∈ pairs, IsPair p) (blank : ∀ c ∈ behind, isBlank c = true) :
      EndsInBlock (front ++ '\x60' :: (pairs.flatten ++ '\x60' :: behind))

/-! ### What is left to read -/

/-- The pairs that are left of a block, the back-tick that closes it, and the blanks behind that. -/
def Closes (rest : List Char) : Prop :=
  ∃ (pairs : List (List Char)) (behind : List Char), (∀ p ∈ pairs, IsPair p) ∧
    (∀ c ∈ behind, isBlank c = true) ∧ rest = pairs.flatten ++ '\x60' :: behind

/-- **What is left to read in a state**: the rest of a pair, and what closes the block. -/
def Remains : Tag → List Char → Prop
  | .opened, rest => ∃ pair more, IsPair pair ∧ Closes more ∧ rest = pair ++ more
  | .key, rest => ∃ key value blanks more, (∀ c ∈ key, IsKeyLetter c) ∧ '"' ∉ value ∧
      (∀ c ∈ blanks, isBlank c = true) ∧ Closes more ∧
      rest = key ++ (':' :: '"' :: (value ++ '"' :: (blanks ++ more)))
  | .colon, rest => ∃ value blanks more, '"' ∉ value ∧ (∀ c ∈ blanks, isBlank c = true) ∧
      Closes more ∧ rest = '"' :: (value ++ '"' :: (blanks ++ more))
  | .value, rest => ∃ value blanks more, '"' ∉ value ∧ (∀ c ∈ blanks, isBlank c = true) ∧
      Closes more ∧ rest = value ++ '"' :: (blanks ++ more)
  | .between, rest => ∃ blanks more, (∀ c ∈ blanks, isBlank c = true) ∧ Closes more ∧
      rest = blanks ++ more
  | .closed, rest => ∀ c ∈ rest, isBlank c = true

/-- A pair that comes first is a letter of its key, and the rest of the pair. -/
theorem exists_pair_cons_iff {c : Char} {rest : List Char} :
    (∃ pair more, IsPair pair ∧ Closes more ∧ c :: rest = pair ++ more) ↔
      IsKeyLetter c ∧ Remains .key rest := by
  constructor
  · rintro ⟨pair, more, ⟨hne, hletters, hvalue, hblanks⟩, hcloses, htext⟩
    rename_i key value blanks
    obtain ⟨a, key, rfl⟩ := List.exists_cons_of_ne_nil hne
    rw [List.cons_append, List.cons_append, List.cons.injEq] at htext
    obtain ⟨rfl, rfl⟩ := htext
    rw [List.forall_mem_cons] at hletters
    exact ⟨hletters.1, key, value, blanks, more, hletters.2, hvalue, hblanks, hcloses, by simp⟩
  · rintro ⟨hletter, key, value, blanks, more, hkey, hvalue, hblanks, hcloses, rfl⟩
    have hletters : ∀ a ∈ c :: key, IsKeyLetter a := List.forall_mem_cons.mpr ⟨hletter, hkey⟩
    exact ⟨_, more, .mk (List.cons_ne_nil c key) hletters hvalue hblanks, hcloses, by simp⟩

/-- What closes a block starts with another pair or with the back-tick. -/
theorem closes_cons_iff {c : Char} {rest : List Char} :
    Closes (c :: rest) ↔
      (IsKeyLetter c ∧ Remains .key rest) ∨ (c = '\x60' ∧ Remains .closed rest) := by
  rw [← exists_pair_cons_iff]
  constructor
  · rintro ⟨pairs, behind, hpairs, hbehind, htext⟩
    cases pairs with
    | nil =>
        rw [List.flatten_nil, List.nil_append, List.cons.injEq] at htext
        obtain ⟨rfl, rfl⟩ := htext
        exact .inr ⟨rfl, hbehind⟩
    | cons pair pairs =>
        rw [List.forall_mem_cons] at hpairs
        rw [List.flatten_cons, List.append_assoc] at htext
        exact .inl ⟨pair, _, hpairs.1, ⟨pairs, behind, hpairs.2, hbehind, rfl⟩, htext⟩
  · rintro (⟨pair, more, hpair, ⟨pairs, behind, hpairs, hbehind, rfl⟩, htext⟩ | ⟨rfl, hbehind⟩)
    · refine ⟨pair :: pairs, behind, List.forall_mem_cons.mpr ⟨hpair, hpairs⟩, hbehind, ?_⟩
      rw [htext, List.flatten_cons, List.append_assoc]
    · exact ⟨[], rest, by simp, hbehind, rfl⟩

/-! ### One step -/

/-- A letter of a key is neither a blank nor one of the signs of a block. -/
theorem IsKeyLetter.not_sign {c : Char} (h : IsKeyLetter c) :
    isBlank c = false ∧ c ≠ ':' ∧ c ≠ '\x60' := by
  have hrange : (0x41 ≤ c.toNat ∧ c.toNat ≤ 0x5A) ∨ (0x61 ≤ c.toNat ∧ c.toNat ≤ 0x7A) ∨
      (0x30 ≤ c.toNat ∧ c.toNat ≤ 0x39) ∨ c.toNat = 0x5F ∨ c.toNat = 0x2E ∨ c.toNat = 0x2D := by
    rcases h with h | h | h | rfl | rfl | rfl
    · exact .inl h
    · exact .inr (.inl h)
    · exact .inr (.inr (.inl h))
    all_goals decide
  refine ⟨?_, ?_, ?_⟩
  · simp only [isBlank, Bool.or_eq_false_iff, Bool.and_eq_false_iff, decide_eq_false_iff_not,
      beq_eq_false_iff_ne]
    omega
  · rintro rfl
    exact absurd hrange (by decide)
  · rintro rfl
    exact absurd hrange (by decide)

theorem remains_opened_cons_iff {c : Char} {rest : List Char} :
    Remains .opened (c :: rest) ↔ IsKeyLetter c ∧ Remains .key rest :=
  exists_pair_cons_iff

theorem remains_key_cons_iff {c : Char} {rest : List Char} :
    Remains .key (c :: rest) ↔
      (IsKeyLetter c ∧ Remains .key rest) ∨ (c = ':' ∧ Remains .colon rest) := by
  constructor
  · rintro ⟨key, value, blanks, more, hkey, hvalue, hblanks, hcloses, htext⟩
    cases key with
    | nil =>
        obtain ⟨rfl, rfl⟩ := List.cons.inj htext
        exact .inr ⟨rfl, value, blanks, more, hvalue, hblanks, hcloses, rfl⟩
    | cons a key =>
        obtain ⟨rfl, rfl⟩ := List.cons.inj htext
        rw [List.forall_mem_cons] at hkey
        exact .inl ⟨hkey.1, key, value, blanks, more, hkey.2, hvalue, hblanks, hcloses, rfl⟩
  · rintro (⟨hletter, key, value, blanks, more, hkey, hvalue, hblanks, hcloses, rfl⟩ |
      ⟨rfl, value, blanks, more, hvalue, hblanks, hcloses, rfl⟩)
    · exact ⟨c :: key, value, blanks, more, List.forall_mem_cons.mpr ⟨hletter, hkey⟩, hvalue,
        hblanks, hcloses, rfl⟩
    · exact ⟨[], value, blanks, more, by simp, hvalue, hblanks, hcloses, rfl⟩

theorem remains_colon_cons_iff {c : Char} {rest : List Char} :
    Remains .colon (c :: rest) ↔ c = '"' ∧ Remains .value rest := by
  constructor
  · rintro ⟨value, blanks, more, hvalue, hblanks, hcloses, htext⟩
    obtain ⟨rfl, rfl⟩ := List.cons.inj htext
    exact ⟨rfl, value, blanks, more, hvalue, hblanks, hcloses, rfl⟩
  · rintro ⟨rfl, value, blanks, more, hvalue, hblanks, hcloses, rfl⟩
    exact ⟨value, blanks, more, hvalue, hblanks, hcloses, rfl⟩

theorem remains_value_cons_iff {c : Char} {rest : List Char} :
    Remains .value (c :: rest) ↔
      (c = '"' ∧ Remains .between rest) ∨ (c ≠ '"' ∧ Remains .value rest) := by
  constructor
  · rintro ⟨value, blanks, more, hvalue, hblanks, hcloses, htext⟩
    cases value with
    | nil =>
        obtain ⟨rfl, rfl⟩ := List.cons.inj htext
        exact .inl ⟨rfl, blanks, more, hblanks, hcloses, rfl⟩
    | cons a value =>
        obtain ⟨rfl, rfl⟩ := List.cons.inj htext
        rw [List.mem_cons, not_or] at hvalue
        exact .inr ⟨Ne.symm hvalue.1, value, blanks, more, hvalue.2, hblanks, hcloses, rfl⟩
  · rintro (⟨rfl, blanks, more, hblanks, hcloses, rfl⟩ |
      ⟨hquote, value, blanks, more, hvalue, hblanks, hcloses, rfl⟩)
    · exact ⟨[], blanks, more, List.not_mem_nil, hblanks, hcloses, rfl⟩
    · exact ⟨c :: value, blanks, more, by simp [Ne.symm hquote, hvalue], hblanks, hcloses, rfl⟩

theorem remains_between_cons_iff {c : Char} {rest : List Char} :
    Remains .between (c :: rest) ↔
      (isBlank c = true ∧ Remains .between rest) ∨ (IsKeyLetter c ∧ Remains .key rest) ∨
        (c = '\x60' ∧ Remains .closed rest) := by
  rw [← closes_cons_iff]
  constructor
  · rintro ⟨blanks, more, hblanks, hcloses, htext⟩
    cases blanks with
    | nil =>
        rw [List.nil_append] at htext
        exact .inr (htext ▸ hcloses)
    | cons a blanks =>
        obtain ⟨rfl, rfl⟩ := List.cons.inj htext
        rw [List.forall_mem_cons] at hblanks
        exact .inl ⟨hblanks.1, blanks, more, hblanks.2, hcloses, rfl⟩
  · rintro (⟨hblank, blanks, more, hblanks, hcloses, rfl⟩ | hcloses)
    · exact ⟨c :: blanks, more, List.forall_mem_cons.mpr ⟨hblank, hblanks⟩, hcloses, rfl⟩
    · exact ⟨[], c :: rest, by simp, hcloses, rfl⟩

theorem remains_closed_cons_iff {c : Char} {rest : List Char} :
    Remains .closed (c :: rest) ↔ isBlank c = true ∧ Remains .closed rest :=
  List.forall_mem_cons

/-- **A step takes the first character off what is left to read**, in every state. -/
theorem remains_cons_iff (t : Tag) (c : Char) (rest : List Char) :
    Remains t (c :: rest) ↔ ∃ t', t.step c = some t' ∧ Remains t' rest := by
  cases t with
  | opened =>
      rw [remains_opened_cons_iff, ← isKeyChar_iff, Tag.step]
      by_cases hkey : isKeyChar c = true <;> simp [hkey]
  | key =>
      rw [remains_key_cons_iff, ← isKeyChar_iff, Tag.step]
      by_cases hkey : isKeyChar c = true
      · have hcolon : c ≠ ':' := (isKeyChar_iff.mp hkey).not_sign.2.1
        simp [hkey, hcolon]
      · by_cases hcolon : c = ':'
        · have hnokey : isKeyChar ':' = false := by decide
          subst hcolon
          simp [hnokey]
        · simp [hkey, hcolon]
  | colon =>
      rw [remains_colon_cons_iff, Tag.step]
      by_cases hquote : c = '"' <;> simp [hquote]
  | value =>
      rw [remains_value_cons_iff, Tag.step]
      by_cases hquote : c = '"' <;> simp [hquote]
  | between =>
      rw [remains_between_cons_iff, ← isKeyChar_iff, Tag.step]
      -- The three ways to go on exclude each other.
      by_cases hkey : isKeyChar c = true
      · obtain ⟨hblank, -, htick⟩ := (isKeyChar_iff.mp hkey).not_sign
        simp [hkey, hblank, htick]
      · by_cases htick : c = '\x60'
        · have hblank : isBlank '\x60' = false := by decide
          have hnokey : isKeyChar '\x60' = false := by decide
          subst htick
          simp [hblank, hnokey]
        · by_cases hblank : isBlank c = true <;> simp [hkey, hblank, htick]
  | closed =>
      rw [remains_closed_cons_iff, Tag.step]
      by_cases hblank : isBlank c = true <;> simp [hblank]

/-- At the end of a line a block is closed. -/
theorem remains_nil_iff (t : Tag) : Remains t [] ↔ t = .closed := by
  have hcloses : ¬ Closes [] := by
    rintro ⟨pairs, behind, -, -, htext⟩
    simp at htext
  cases t with
  | opened =>
      refine iff_of_false ?_ (by decide)
      rintro ⟨pair, more, -, hmore, htext⟩
      rw [(List.append_eq_nil_iff.mp htext.symm).2] at hmore
      exact hcloses hmore
  | key => simp [Remains]
  | colon => simp [Remains]
  | value => simp [Remains]
  | between =>
      refine iff_of_false ?_ (by decide)
      rintro ⟨blanks, more, -, hmore, htext⟩
      rw [(List.append_eq_nil_iff.mp htext.symm).2] at hmore
      exact hcloses hmore
  | closed => simp [Remains]

/-! ### Lines -/

/-- **A line is read to its end exactly if it is what was left to read.** -/
theorem completes_iff (t : Tag) (rest : List Char) : completes t rest = true ↔ Remains t rest := by
  induction rest generalizing t with
  | nil => rw [completes, beq_iff_eq, remains_nil_iff]
  | cons c rest ih =>
      rw [completes, remains_cons_iff]
      cases hstep : t.step c with
      | none => simp
      | some t' => simp [ih]

theorem endsInTags_iff_exists {line : List Char} :
    endsInTags line = true ↔
      ∃ front rest, completes .opened rest = true ∧ line = front ++ '\x60' :: rest := by
  induction line with
  | nil => simp [endsInTags]
  | cons c line ih =>
      rw [endsInTags, Bool.or_eq_true, Bool.and_eq_true, beq_iff_eq, ih]
      constructor
      · rintro (⟨rfl, hrest⟩ | ⟨front, rest, hrest, rfl⟩)
        · exact ⟨[], line, hrest, rfl⟩
        · exact ⟨c :: front, rest, hrest, rfl⟩
      · rintro ⟨front, rest, hrest, htext⟩
        cases front with
        | nil =>
            obtain ⟨rfl, rfl⟩ := List.cons.inj htext
            exact .inl ⟨rfl, hrest⟩
        | cons a front =>
            obtain ⟨rfl, rfl⟩ := List.cons.inj htext
            exact .inr ⟨front, rest, hrest, rfl⟩

/-- **Trying every back-tick finds a block wherever it starts.** -/
theorem endsInTags_iff {line : List Char} : endsInTags line = true ↔ EndsInBlock line := by
  rw [endsInTags_iff_exists]
  constructor
  · rintro ⟨front, rest, hrest, rfl⟩
    obtain ⟨pair, more, hpair, ⟨pairs, behind, hpairs, hbehind, rfl⟩, rfl⟩ :=
      (completes_iff .opened rest).mp hrest
    have hall : ∀ p ∈ pair :: pairs, IsPair p := List.forall_mem_cons.mpr ⟨hpair, hpairs⟩
    have hblock : EndsInBlock (front ++ '\x60' :: ((pair :: pairs).flatten ++ '\x60' :: behind)) :=
      .mk (List.cons_ne_nil pair pairs) hall hbehind
    rwa [List.flatten_cons, List.append_assoc] at hblock
  · rintro ⟨hne, hpairs, hbehind⟩
    rename_i front behind pairs
    obtain ⟨pair, pairs, rfl⟩ := List.exists_cons_of_ne_nil hne
    rw [List.forall_mem_cons] at hpairs
    have hcloses : Closes (pairs.flatten ++ '\x60' :: behind) :=
      ⟨pairs, behind, hpairs.2, hbehind, rfl⟩
    rw [List.flatten_cons, List.append_assoc]
    exact ⟨front, _, (completes_iff .opened _).mpr ⟨pair, _, hpairs.1, hcloses, rfl⟩, rfl⟩

/-! ### Tabs -/

/-- A tab is read as a blank is, and neither changes the state. -/
theorem step_tab (t : Tag) :
    (t.step '\t' = none ∧ t.step ' ' = none) ∨
      (t.step '\t' = some t ∧ t.step ' ' = some t) := by
  cases t <;> decide

theorem expandTabs_cons_tab (line : List Char) :
    expandTabs ('\t' :: line) = ' ' :: ' ' :: ' ' :: ' ' :: expandTabs line := rfl

theorem expandTabs_cons_of_ne {c : Char} (h : c ≠ '\t') (line : List Char) :
    expandTabs (c :: line) = c :: expandTabs line := by
  simp [expandTabs, h]

/-- **Tabs may be spelled out in every part of a block.** -/
theorem completes_expandTabs (t : Tag) (rest : List Char) :
    completes t (expandTabs rest) = completes t rest := by
  induction rest generalizing t with
  | nil => rfl
  | cons c rest ih =>
      by_cases hc : c = '\t'
      · subst hc
        rw [expandTabs_cons_tab]
        rcases step_tab t with ⟨htab, hblank⟩ | ⟨htab, hblank⟩
        · simp only [completes, htab, hblank]
        · simp only [completes, htab, hblank, ih]
      · rw [expandTabs_cons_of_ne hc, completes, completes]
        cases t.step c with
        | none => rfl
        | some t' => exact ih t'

theorem endsInTags_expandTabs (line : List Char) :
    endsInTags (expandTabs line) = endsInTags line := by
  induction line with
  | nil => rfl
  | cons c line ih =>
      by_cases hc : c = '\t'
      · subst hc
        rw [expandTabs_cons_tab]
        have hblank : (' ' == '\x60') = false := by decide
        have htab : ('\t' == '\x60') = false := by decide
        simp only [endsInTags, hblank, htab, Bool.false_and, Bool.false_or, ih]
      · rw [expandTabs_cons_of_ne hc, endsInTags, endsInTags, completes_expandTabs, ih]

/-- A start without a blank or a tab is not touched by tabs. -/
theorem isPrefixOf_expandTabs {start : List Char} (htab : '\t' ∉ start) (hblank : ' ' ∉ start)
    (line : List Char) : start.isPrefixOf (expandTabs line) = start.isPrefixOf line := by
  induction start generalizing line with
  | nil => rfl
  | cons a start ih =>
      rw [List.mem_cons, not_or] at htab hblank
      cases line with
      | nil => rfl
      | cons c line =>
          by_cases hc : c = '\t'
          · subst hc
            have hfirst : (a == ' ') = false := beq_eq_false_iff_ne.mpr (Ne.symm hblank.1)
            have hother : (a == '\t') = false := beq_eq_false_iff_ne.mpr (Ne.symm htab.1)
            rw [expandTabs_cons_tab, List.isPrefixOf, List.isPrefixOf, hfirst, hother,
              Bool.false_and, Bool.false_and]
          · rw [expandTabs_cons_of_ne hc, List.isPrefixOf, List.isPrefixOf,
              ih htab.2 hblank.2 line]

/-- **The lines that may run long** are the directives and those that end in a block of tags, and a
line is one of them before its tabs are spelled out exactly if it is afterwards. -/
theorem isExempt_iff_and_expandTabs (line : List Char) :
    (isExempt line = true ↔ "//go:".toList <+: line ∨ EndsInBlock line) ∧
      isExempt (expandTabs line) = isExempt line := by
  constructor
  · rw [isExempt, Bool.or_eq_true, List.isPrefixOf_iff_prefix, endsInTags_iff]
    rfl
  · rw [isExempt, isExempt, endsInTags_expandTabs, isPrefixOf_expandTabs (by decide) (by decide)]

/-- A back-tick inside a value opens no block, and one pair may follow another without a blank. -/
example : EndsInBlock "A int \x60k.1:\"\x60 x:\"b-_:\"\"\x60\t".toList :=
  endsInTags_iff.mp (by decide)

end LintSuite.LineLength
