import LintSuite.Proofs.GeneratedMark
import LintSuite.Proofs.IgnoredNames
import LintSuite.Proofs.PatternReadings

/-!
# Lines and names by patterns

Marks of generated code, blocks of tags and the names that are ignored are set down as patterns.  The
tests that run are no matchers of these patterns: a mark is tested at its two ends, a block is read
without looking back, and of a name only the folded ending is compared.  Here the patterns are written
out, and each test is shown to find what its pattern finds anywhere in a text.

### Main statements

* `isMarker_eq_occurs`: the test for marks, for lines.
* `endsInTags_eq_occurs`: the test for blocks of tags, for any text.
* `isIgnored_eq_occurs`: the test for ignored names, for any name.

### Design decisions

**From the left, part by part.**  A pattern is a sequence, and what is left of a sequence is a sequence
again.  So there is one equation for each kind of part in front (`reads_literal_cons` and those
around it), and reading a pattern out is rewriting with them until it is at its end.  What comes out is
the grammar that the test was measured against before, with its parts in the same order.

**Any character is any but a line feed.**  Therefore the pattern of the mark and its test agree on lines
only.  The other two patterns hold no such part, and there the two agree on all texts.

**Letters without regard to case.**  Each letter of such a pattern stands for all characters that fold
to it: itself, its capital, and for two of them a sign from further on (`mem_forms_iff`).  This is the
folding of Unicode, so the subject itself is matched with regard to case.

### What is load-bearing

That the matcher finds whatever a pattern reads (`occurs_iff`).  The patterns here repeat parts that
may be empty and parts that overlap with what follows them, and which of the ways to cut a text a
matcher tries first is not for this module to know.
-/

namespace LintSuite

open Text

namespace Regex

/-! ### Parts of patterns -/

/-- A text as it stands. -/
def literal (text : String) : Regex :=
  text.toList.foldr (fun c p => .followed (.char c) p) .empty

/-- Patterns one after another. -/
def sequence (ps : List Regex) : Regex :=
  ps.foldr .followed .empty

/-- One of some patterns. -/
def choice (ps : List Regex) : Regex :=
  ps.foldr .either (.oneOf false [])

/-- A pattern any number of times. -/
def star (p : Regex) : Regex := .repeated p 0 none

/-- A pattern once or more often. -/
def plus (p : Regex) : Regex := .repeated p 1 none

/-- A pattern that may be left out. -/
def optional (p : Regex) : Regex := .repeated p 0 (some 1)

/-- Any blank. -/
def blank : Regex :=
  .oneOf false [('\t', '\r'), (' ', ' '), ('\u0085', '\u0085'), ('\u00A0', '\u00A0'),
    ('\u1680', '\u1680'), ('\u2000', '\u200A'), ('\u2028', '\u2029'), ('\u202F', '\u202F'),
    ('\u205F', '\u205F'), ('\u3000', '\u3000')]

/-- Any character but one. -/
def notChar (c : Char) : Regex := .oneOf true [(c, c)]

section Reading

variable {s : Subject} {ps : List Regex} {before piece behind : List Char}

theorem reads_sequence_nil : (sequence []).Reads s before piece behind ↔ piece = [] := Iff.rfl

theorem reads_sequence_cons {p : Regex} : (sequence (p :: ps)).Reads s before piece behind ↔
    ∃ front back, piece = front ++ back ∧ p.Reads s before front (back ++ behind) ∧
      (sequence ps).Reads s (before ++ front) back behind := Iff.rfl

theorem reads_choice : (choice ps).Reads s before piece behind ↔
    ∃ p ∈ ps, p.Reads s before piece behind := by
  induction ps with
  | nil => simp [choice, Reads, Language.ofChar, inRanges]
  | cons p ps ih =>
      show p.Reads s before piece behind ∨ (choice ps).Reads s before piece behind ↔ _
      rw [ih, List.exists_mem_cons_iff]

/-- What is read of parts that are each told by a property of their own. -/
theorem times_iff {L : Language} {P : List Char → Prop}
    (h : ∀ before piece behind, L before piece behind ↔ P piece) {n : Nat} :
    L.times n before piece behind ↔
      ∃ pieces : List (List Char), pieces.length = n ∧ (∀ p ∈ pieces, P p) ∧
        piece = pieces.flatten := by
  induction n generalizing before piece with
  | zero => simp [Language.times]
  | succ n ih =>
      rw [Language.times, Language.followed]
      constructor
      · rintro ⟨front, back, rfl, hfront, hback⟩
        obtain ⟨pieces, rfl, hpieces, rfl⟩ := ih.mp hback
        exact ⟨front :: pieces, rfl, List.forall_mem_cons.mpr ⟨(h _ _ _).mp hfront, hpieces⟩, rfl⟩
      · rintro ⟨pieces, hlength, hpieces, rfl⟩
        obtain ⟨front, pieces, rfl⟩ := List.exists_cons_of_length_eq_add_one hlength
        obtain ⟨hfront, hpieces⟩ := List.forall_mem_cons.mp hpieces
        exact ⟨front, pieces.flatten, rfl, (h _ _ _).mpr hfront,
          ih.mpr ⟨pieces, Nat.succ.inj hlength, hpieces, rfl⟩⟩

theorem times_ofChar_iff {fits : Char → Bool} {n : Nat} :
    (Language.ofChar fits).times n before piece behind ↔
      piece.length = n ∧ ∀ c ∈ piece, fits c = true := by
  induction n generalizing before piece with
  | zero =>
      rw [Language.times, List.length_eq_zero_iff]
      constructor
      · rintro rfl
        simp
      · exact And.left
  | succ n ih =>
      rw [Language.times, Language.followed]
      constructor
      · rintro ⟨_, back, rfl, ⟨c, rfl, hc⟩, hback⟩
        obtain ⟨rfl, hall⟩ := ih.mp hback
        exact ⟨rfl, List.forall_mem_cons.mpr ⟨hc, hall⟩⟩
      · rintro ⟨hlength, hall⟩
        obtain ⟨c, back, rfl⟩ := List.exists_cons_of_length_eq_add_one hlength
        obtain ⟨hc, hback⟩ := List.forall_mem_cons.mp hall
        exact ⟨[c], back, rfl, ⟨c, rfl, hc⟩, ih.mpr ⟨Nat.succ.inj hlength, hback⟩⟩

/-- A repetition of characters is told character by character. -/
theorem reads_repeated_ofChar {p : Regex} {fits : Char → Bool} (hp : p.Reads s = .ofChar fits)
    {least : Nat} : (Regex.repeated p least none).Reads s before piece behind ↔
      least ≤ piece.length ∧ ∀ c ∈ piece, fits c = true := by
  show (∃ n, least ≤ n ∧ (∀ m ∈ (none : Option Nat), n ≤ m) ∧
    (p.Reads s).times n before piece behind) ↔ _
  simp only [hp, times_ofChar_iff]
  constructor
  · rintro ⟨n, hn, -, rfl, hall⟩
    exact ⟨hn, hall⟩
  · rintro ⟨hn, hall⟩
    exact ⟨_, hn, by simp, rfl, hall⟩

theorem reads_star_cons {p : Regex} {fits : Char → Bool} (hp : p.Reads s = .ofChar fits) :
    (sequence (star p :: ps)).Reads s before piece behind ↔
      ∃ front back, piece = front ++ back ∧ (∀ c ∈ front, fits c = true) ∧
        (sequence ps).Reads s (before ++ front) back behind := by
  simp only [reads_sequence_cons, star, reads_repeated_ofChar hp, Nat.zero_le, true_and]

theorem reads_plus_cons {p : Regex} {fits : Char → Bool} (hp : p.Reads s = .ofChar fits) :
    (sequence (plus p :: ps)).Reads s before piece behind ↔
      ∃ front back, piece = front ++ back ∧ (front ≠ [] ∧ ∀ c ∈ front, fits c = true) ∧
        (sequence ps).Reads s (before ++ front) back behind := by
  simp only [reads_sequence_cons, plus, reads_repeated_ofChar hp, Nat.one_le_iff_ne_zero, ne_eq,
    List.length_eq_zero_iff]

/-- A repetition of parts that are told by a property of their own. -/
theorem reads_parts_cons {p : Regex} {P : List Char → Prop}
    (hp : ∀ before piece behind, p.Reads s before piece behind ↔ P piece) :
    (sequence (plus p :: ps)).Reads s before piece behind ↔
      ∃ (pieces : List (List Char)) (back : List Char), piece = pieces.flatten ++ back ∧
        (pieces ≠ [] ∧ ∀ q ∈ pieces, P q) ∧
        (sequence ps).Reads s (before ++ pieces.flatten) back behind := by
  rw [reads_sequence_cons]
  constructor
  · rintro ⟨_, back, rfl, ⟨n, hn, -, hfront⟩, hback⟩
    obtain ⟨pieces, rfl, hpieces, rfl⟩ := (times_iff hp).mp hfront
    exact ⟨pieces, back, rfl, ⟨List.length_pos_iff.mp hn, hpieces⟩, hback⟩
  · rintro ⟨pieces, back, rfl, ⟨hne, hpieces⟩, hback⟩
    refine ⟨_, back, rfl, ⟨pieces.length, List.length_pos_iff.mpr hne, by simp, ?_⟩, hback⟩
    exact (times_iff hp).mpr ⟨pieces, rfl, hpieces, rfl⟩

theorem reads_start_cons : (sequence (.start :: ps)).Reads s before piece behind ↔
    before = [] ∧ (sequence ps).Reads s before piece behind := by
  rw [reads_sequence_cons]
  constructor
  · rintro ⟨_, back, rfl, ⟨rfl, rfl⟩, hback⟩
    exact ⟨rfl, hback⟩
  · rintro ⟨rfl, hpiece⟩
    exact ⟨[], piece, rfl, ⟨rfl, rfl⟩, hpiece⟩

theorem reads_stop : (sequence [.stop]).Reads s before piece behind ↔ piece = [] ∧ behind = [] := by
  rw [reads_sequence_cons]
  constructor
  · rintro ⟨_, _, rfl, ⟨rfl, hbehind⟩, rfl⟩
    exact ⟨rfl, hbehind⟩
  · rintro ⟨rfl, rfl⟩
    exact ⟨[], [], rfl, ⟨rfl, rfl⟩, rfl⟩

/-- Where case counts, a text is read as it stands. -/
theorem reads_literal (hs : s.caseless = false) {text : String} :
    (literal text).Reads s before piece behind ↔ piece = text.toList := by
  rw [literal]
  induction text.toList generalizing before piece with
  | nil => exact Iff.rfl
  | cons c cs ih =>
      rw [List.foldr_cons, Reads, Language.followed, Reads]
      simp only [ih, Language.ofChar, sameChar, hs, Bool.false_and, Bool.or_false, beq_iff_eq]
      constructor
      · rintro ⟨_, _, rfl, ⟨_, rfl, rfl⟩, rfl⟩
        rfl
      · rintro rfl
        exact ⟨[c], cs, rfl, ⟨c, rfl, rfl⟩, rfl⟩

theorem reads_literal_cons (hs : s.caseless = false) {text : String} :
    (sequence (literal text :: ps)).Reads s before piece behind ↔
      ∃ back, piece = text.toList ++ back ∧
        (sequence ps).Reads s (before ++ text.toList) back behind := by
  rw [reads_sequence_cons]
  simp only [reads_literal hs]
  constructor
  · rintro ⟨_, back, rfl, rfl, hback⟩
    exact ⟨back, rfl, hback⟩
  · rintro ⟨back, rfl, hback⟩
    exact ⟨_, back, rfl, rfl, hback⟩

/-- Where case counts, a range is one of numbers. -/
theorem inRanges_iff (hs : s.caseless = false) {ranges : List (Char × Char)} {c : Char} :
    inRanges s ranges c = true ↔ ∃ r ∈ ranges, r.1 ≤ c ∧ c ≤ r.2 := by
  simp [inRanges, hs]

/-- A range of one character. -/
theorem le_and_le_iff {c d : Char} : c ≤ d ∧ d ≤ c ↔ d = c :=
  le_antisymm_iff.symm.trans eq_comm

theorem reads_blank (hs : s.caseless = false) : blank.Reads s = .ofChar isBlank := by
  rw [blank, Reads]
  congr 1
  funext c
  rw [Bool.bne_false, Bool.eq_iff_iff, inRanges_iff hs]
  simp only [List.exists_mem_cons_iff, List.not_mem_nil, false_and, exists_false, or_false,
    Char.le_def, UInt32.le_iff_toNat_le, Char.toNat_val, Char.reduceToNat, isBlank, Bool.or_eq_true,
    Bool.and_eq_true, decide_eq_true_eq, beq_iff_eq]
  omega

theorem reads_blank_cons (hs : s.caseless = false) :
    (sequence (blank :: ps)).Reads s before piece behind ↔
      ∃ c back, piece = c :: back ∧ isBlank c = true ∧
        (sequence ps).Reads s (before ++ [c]) back behind := by
  rw [reads_sequence_cons, reads_blank hs]
  constructor
  · rintro ⟨_, back, rfl, ⟨c, rfl, hc⟩, hback⟩
    exact ⟨c, back, rfl, hc, hback⟩
  · rintro ⟨c, back, rfl, hc, hback⟩
    exact ⟨[c], back, rfl, ⟨c, rfl, hc⟩, hback⟩

theorem reads_notChar (hs : s.caseless = false) (c : Char) :
    (notChar c).Reads s = .ofChar (· != c) := by
  rw [notChar, Reads]
  congr 1
  funext d
  rw [Bool.eq_iff_iff, bne_iff_ne, bne_iff_ne, ne_eq, ne_eq, inRanges_iff hs]
  simp [le_and_le_iff]

end Reading

end Regex

namespace LineLength

open Regex

/-- A line as a subject. -/
def subject (line : List Char) : Subject := { text := line.toArray }

/-! ### Marks -/

/-- **The pattern of marks.** -/
def markPattern : Regex :=
  sequence [.start, literal "//", blank, literal "Code", blank, literal "generated", blank,
    star (notChar '\n'), blank, literal "DO", blank, literal "NOT", blank, literal "EDIT.", .stop]

/-- The pattern fits exactly the marks. -/
theorem occurs_markPattern {line : List Char} :
    markPattern.occurs (subject line) = true ↔ IsMark line := by
  have hs : (subject line).caseless = false := rfl
  rw [occurs_iff (by decide)]
  simp only [markPattern, reads_start_cons, reads_literal_cons hs, reads_blank_cons hs,
    reads_star_cons (reads_notChar hs _), reads_stop]
  constructor
  · rintro ⟨_, _, _, htext, rfl, _, rfl, a, _, rfl, ha, _, rfl, b, _, rfl, hb, _, rfl, c, _, rfl, hc,
      text, _, rfl, hfeed, d, _, rfl, hd, _, rfl, e, _, rfl, he, _, rfl, f, _, rfl, hf, _, rfl, rfl,
      rfl⟩
    have hline : line = _ := htext
    have htextFeed : '\n' ∉ text := fun hmem => by simpa using hfeed _ hmem
    rw [hline]
    simpa using IsMark.mk ha hb hc htextFeed hd he hf
  · rintro ⟨ha, hb, hc, htext, hd, he, hf⟩
    rename_i a b c d e f text
    have hfeed : ∀ g ∈ text, (g != '\n') = true := fun g hg => by
      rw [bne_iff_ne]
      rintro rfl
      exact htext hg
    exact ⟨[], _, [], by simp [subject], rfl, _, rfl, a, _, rfl, ha, _, rfl, b, _, rfl, hb, _, rfl,
      c, _, rfl, hc, text, _, rfl, hfeed, d, _, rfl, hd, _, rfl, e, _, rfl, he, _, rfl, f, _, rfl, hf,
      _, rfl, rfl, rfl⟩

/-- **Marks are found by their pattern.** -/
theorem isMarker_eq_occurs {line : List Char} (h : '\n' ∉ line) :
    isMarker line = markPattern.occurs (subject line) := by
  rw [Bool.eq_iff_iff, occurs_markPattern, isMarker_iff_isMark h]

/-! ### Blocks of tags -/

/-- A letter of a key. -/
def keyLetter : Regex :=
  .oneOf false [('A', 'Z'), ('a', 'z'), ('0', '9'), ('_', '_'), ('.', '.'), ('-', '-')]

/-- A key, a quoted value, and blanks. -/
def pairPattern : Regex :=
  sequence [plus keyLetter, literal ":\"", star (notChar '"'), literal "\"", star blank]

/-- **The pattern of blocks of tags.** -/
def tagsPattern : Regex :=
  sequence [literal "\x60", plus pairPattern, literal "\x60", star blank, .stop]

theorem reads_keyLetter {s : Subject} (hs : s.caseless = false) :
    keyLetter.Reads s = .ofChar isKeyChar := by
  rw [keyLetter, Reads]
  congr 1
  funext c
  rw [Bool.bne_false, Bool.eq_iff_iff, isKeyChar_iff, IsKeyLetter, inRanges_iff hs]
  simp only [List.exists_mem_cons_iff, List.not_mem_nil, false_and, exists_false, or_false,
    le_and_le_iff]

theorem reads_pairPattern {s : Subject} (hs : s.caseless = false) (before piece behind : List Char) :
    pairPattern.Reads s before piece behind ↔ IsPair piece := by
  simp only [pairPattern, reads_plus_cons (reads_keyLetter hs), reads_literal_cons hs,
    reads_star_cons (reads_notChar hs _), reads_star_cons (reads_blank hs), reads_sequence_nil]
  constructor
  · rintro ⟨key, _, rfl, ⟨hne, hkey⟩, _, rfl, value, _, rfl, hvalue, _, rfl, blanks, _, rfl, hblanks,
      rfl⟩
    have hquote : '"' ∉ value := fun hmem => by simpa using hvalue _ hmem
    have hletters : ∀ c ∈ key, IsKeyLetter c := fun c hc => isKeyChar_iff.mp (hkey c hc)
    simpa using IsPair.mk hne hletters hquote hblanks
  · rintro ⟨hne, hletters, hquote, hblanks⟩
    rename_i key value blanks
    have hvalue : ∀ c ∈ value, (c != '"') = true := fun c hc => by
      rw [bne_iff_ne]
      rintro rfl
      exact hquote hc
    exact ⟨key, _, rfl, ⟨hne, fun c hc => isKeyChar_iff.mpr (hletters c hc)⟩, _, rfl, value, _, rfl,
      hvalue, _, rfl, blanks, _, by simp, hblanks, rfl⟩

theorem occurs_tagsPattern {line : List Char} :
    tagsPattern.occurs (subject line) = true ↔ EndsInBlock line := by
  have hs : (subject line).caseless = false := rfl
  rw [occurs_iff (by decide)]
  simp only [tagsPattern, reads_literal_cons hs, reads_parts_cons (reads_pairPattern hs),
    reads_star_cons (reads_blank hs), reads_stop]
  constructor
  · rintro ⟨front, _, _, htext, _, rfl, pairs, _, rfl, ⟨hne, hpairs⟩, _, rfl, behind, _, rfl, hblanks,
      rfl, rfl⟩
    have hline : line = _ := htext
    rw [hline]
    simpa using EndsInBlock.mk hne hpairs hblanks
  · rintro ⟨hne, hpairs, hblanks⟩
    rename_i front behind pairs
    exact ⟨front, _, [], by simp [subject], _, rfl, pairs, _, rfl, ⟨hne, hpairs⟩, _, rfl, behind, _,
      rfl, hblanks, rfl, rfl⟩

/-- **Blocks of tags are found by their pattern.** -/
theorem endsInTags_eq_occurs (line : List Char) :
    endsInTags line = tagsPattern.occurs (subject line) := by
  rw [Bool.eq_iff_iff, occurs_tagsPattern, endsInTags_iff]

end LineLength

/-! ### Ignored names -/

namespace Regex

/-- The characters that fold to a small letter, or to a dot. -/
def forms (c : Char) : List Char :=
  c :: c.toUpper :: if c = 's' then ['ſ'] else if c = 'k' then ['\u212A'] else []

/-- A letter without regard to case. -/
def letter (c : Char) : Regex :=
  .oneOf false ((forms c).map fun d => (d, d))

/-- A word without regard to case. -/
def folded (word : String) : Regex :=
  word.toList.foldr (fun c p => .followed (letter c) p) .empty

/-- Whether a character is a small letter or a dot. -/
def isSmall (c : Char) : Bool :=
  c == '.' || ('a' ≤ c && c ≤ 'z')

theorem toNat_lt_of_isSmall {c : Char} (h : isSmall c = true) : c.toNat < 0x80 := by
  rw [isSmall, Bool.or_eq_true, Bool.and_eq_true, beq_iff_eq, decide_eq_true_eq,
    decide_eq_true_eq] at h
  rcases h with rfl | ⟨-, h⟩
  · decide
  · have hle : c.toNat ≤ 122 := h
    omega

/-- The two characters of more bytes that fold to letters of one. -/
def signs : List Char := ['ſ', '\u212A']

/-- **The characters that a letter of a pattern stands for** are those that fold to it. -/
theorem mem_forms_iff {c d : Char} (hc : isSmall c = true) : d ∈ forms c ↔ foldCase d = c := by
  have hbytes : oneByte.all (fun c => !isSmall c ||
      oneByte.all fun d => (forms c).contains d == (foldCase d == c)) = true := by
    decide +kernel
  have hsigns : oneByte.all (fun c => !isSmall c ||
      signs.all fun d => (forms c).contains d == (foldCase d == c)) = true := by
    decide +kernel
  have hforms : oneByte.all (fun c => !isSmall c ||
      (forms c).all fun d => d.toNat < 0x80 || signs.contains d) = true := by
    decide +kernel
  have hlt := toNat_lt_of_isSmall hc
  have hall {P : Char → Bool} (h : oneByte.all (fun c => !isSmall c || P c) = true) :
      P c = true := by
    simpa [hc] using List.all_eq_true.mp h c (mem_oneByte hlt)
  have hagree (h : ((forms c).contains d == (foldCase d == c)) = true) :
      d ∈ forms c ↔ foldCase d = c := by
    rw [← List.contains_iff_mem, eq_of_beq h, beq_iff_eq]
  by_cases hd : d.toNat < 0x80
  · exact hagree (List.all_eq_true.mp (hall hbytes) d (mem_oneByte hd))
  by_cases hsign : d ∈ signs
  · exact hagree (List.all_eq_true.mp (hall hsigns) d hsign)
  -- Any other character folds to itself, and that is no letter.
  have hself : foldCase d = d := foldCase_of_not_ascii (not_lt.mp hd)
    (fun h => hsign (h ▸ List.mem_cons_self))
    fun h => hsign (h ▸ List.mem_cons_of_mem _ List.mem_cons_self)
  rw [hself]
  refine iff_of_false (fun hmem => ?_) (fun h => hd (h ▸ hlt))
  have hfew := List.all_eq_true.mp (hall hforms) d hmem
  rw [Bool.or_eq_true, decide_eq_true_eq, List.contains_iff_mem] at hfew
  exact hfew.elim hd hsign

section Reading

variable {s : Subject} {ps : List Regex} {before piece behind : List Char}

theorem reads_letter (hs : s.caseless = false) {c : Char} (hc : isSmall c = true) :
    (letter c).Reads s = .ofChar (foldCase · == c) := by
  rw [letter, Reads]
  congr 1
  funext d
  rw [Bool.bne_false, Bool.eq_iff_iff, inRanges_iff hs, beq_iff_eq, ← mem_forms_iff hc]
  simp [le_and_le_iff]

theorem reads_folded (hs : s.caseless = false) {word : String}
    (h : word.toList.all isSmall = true) :
    (folded word).Reads s before piece behind ↔ piece.map foldCase = word.toList := by
  rw [folded]
  rw [List.all_eq_true] at h
  generalize word.toList = cs at h ⊢
  induction cs generalizing before piece with
  | nil => exact List.map_eq_nil_iff.symm
  | cons c cs ih =>
      obtain ⟨hc, hcs⟩ := List.forall_mem_cons.mp h
      rw [List.foldr_cons, Reads, Language.followed, reads_letter hs hc]
      simp only [ih hcs]
      constructor
      · rintro ⟨_, back, rfl, ⟨d, rfl, hd⟩, hback⟩
        rw [List.map_append, hback, List.map_singleton, eq_of_beq hd, List.singleton_append]
      · intro hpiece
        obtain ⟨d, back, rfl, hd, hback⟩ := List.map_eq_cons_iff.mp hpiece
        exact ⟨[d], back, rfl, ⟨d, rfl, beq_iff_eq.mpr hd⟩, hback⟩

theorem reads_optional {p : Regex} {P : List Char → Prop}
    (hp : ∀ before piece behind, p.Reads s before piece behind ↔ P piece) :
    (optional p).Reads s before piece behind ↔ piece = [] ∨ P piece := by
  show (∃ n, 0 ≤ n ∧ (∀ m ∈ some 1, n ≤ m) ∧ (p.Reads s).times n before piece behind) ↔ _
  simp only [times_iff hp]
  constructor
  · rintro ⟨n, -, hn, pieces, rfl, hpieces, rfl⟩
    have hlength : pieces.length ≤ 1 := hn 1 rfl
    cases pieces with
    | nil => exact .inl rfl
    | cons q pieces =>
        obtain rfl : pieces = [] := by simpa using hlength
        exact .inr (by simpa using hpieces)
  · rintro (rfl | hpiece)
    · exact ⟨0, le_rfl, by simp, [], rfl, by simp, rfl⟩
    · exact ⟨1, Nat.zero_le 1, by simp, [piece], rfl, by simpa using hpiece, by simp⟩

end Reading

end Regex

open Regex

/-- The extensions before the one with two spellings. -/
def shortWords : List String :=
  ["db", "der", "dll", "drawio", "exe", "gif", "gz", "jar"]

/-- The extensions behind it. -/
def longWords : List String :=
  ["pdf", "pem", "png", "so", "tar", "tgz", "xz", "zip"]

/-- One of the extensions, in one of which a letter may be left out. -/
def extensionPattern : Regex :=
  choice (shortWords.map folded ++
    sequence [folded "jp", optional (folded "e"), folded "g"] :: longWords.map folded)

/-- **The pattern of ignored names.** -/
def ignoredPattern : Regex :=
  sequence [.either (sequence [folded ".", extensionPattern]) (sequence [.start, folded "go.sum"]),
    .stop]

section Names

variable {s : Subject} (hs : s.caseless = false) {before piece behind : List Char}
include hs

/-- Both spellings of one extension. -/
theorem reads_jpeg : (sequence [folded "jp", optional (folded "e"), folded "g"]).Reads s before piece
    behind ↔ piece.map foldCase = "jpg".toList ∨ piece.map foldCase = "jpeg".toList := by
  have hword (word : String) (h : word.toList.all isSmall = true) (before piece behind : List Char) :
      (folded word).Reads s before piece behind ↔ piece.map foldCase = word.toList :=
    reads_folded hs h
  have hjp := hword "jp" (by decide +kernel)
  have he := hword "e" (by decide +kernel)
  have hg := hword "g" (by decide +kernel)
  simp only [reads_sequence_cons, reads_sequence_nil, hjp, reads_optional he, hg]
  constructor
  · rintro ⟨front, _, rfl, hfront, middle, _, rfl, hmiddle, back, _, rfl, hback, rfl⟩
    rcases hmiddle with rfl | hmiddle
    · exact .inl (by simp [hfront, hback])
    · exact .inr (by simp [hfront, hmiddle, hback])
  · rintro (h | h)
    · obtain ⟨front, back, rfl, hfront, hback⟩ :=
        List.map_eq_append_iff.mp (h.trans (rfl : _ = "jp".toList ++ "g".toList))
      exact ⟨front, _, rfl, hfront, [], _, rfl, .inl rfl, back, [], by simp, hback, rfl⟩
    · obtain ⟨front, rest, rfl, hfront, hrest⟩ :=
        List.map_eq_append_iff.mp (h.trans (rfl : _ = "jp".toList ++ "eg".toList))
      obtain ⟨middle, back, rfl, hmiddle, hback⟩ :=
        List.map_eq_append_iff.mp (hrest.trans (rfl : _ = "e".toList ++ "g".toList))
      exact ⟨front, _, rfl, hfront, middle, _, rfl, .inr hmiddle, back, [], by simp, hback, rfl⟩

theorem reads_extensionPattern : extensionPattern.Reads s before piece behind ↔
    ∃ e ∈ ignoredExtensions, piece.map foldCase = e.toList := by
  have hall : ∀ e ∈ ignoredExtensions, e.toList.all isSmall = true := by decide +kernel
  have hword {e : String} (he : e ∈ ignoredExtensions) :
      (folded e).Reads s before piece behind ↔ piece.map foldCase = e.toList :=
    reads_folded hs (hall e he)
  -- The list has a place for each spelling of the one word.
  have hsplit {e : String} : e ∈ ignoredExtensions ↔ e ∈ shortWords ∨ (e = "jpg" ∨ e = "jpeg") ∨
      e ∈ longWords := by
    simp [ignoredExtensions, shortWords, longWords, or_assoc]
  rw [extensionPattern, reads_choice]
  simp only [List.mem_append, List.mem_cons, List.mem_map]
  constructor
  · rintro ⟨p, ⟨e, he, rfl⟩ | rfl | ⟨e, he, rfl⟩, hread⟩
    · have hmem := hsplit.mpr (.inl he)
      exact ⟨e, hmem, (hword hmem).mp hread⟩
    · rcases (reads_jpeg hs).mp hread with h | h
      · exact ⟨"jpg", by decide, h⟩
      · exact ⟨"jpeg", by decide, h⟩
    · have hmem := hsplit.mpr (.inr (.inr he))
      exact ⟨e, hmem, (hword hmem).mp hread⟩
  · rintro ⟨e, hmem, hpiece⟩
    have hread := (hword hmem).mpr hpiece
    rcases hsplit.mp hmem with he | (rfl | rfl) | he
    · exact ⟨_, .inl ⟨e, he, rfl⟩, hread⟩
    · exact ⟨_, .inr (.inl rfl), (reads_jpeg hs).mpr (.inl hpiece)⟩
    · exact ⟨_, .inr (.inl rfl), (reads_jpeg hs).mpr (.inr hpiece)⟩
    · exact ⟨_, .inr (.inr ⟨e, he, rfl⟩), hread⟩

/-- The name of the file of checksums, and endings. -/
theorem reads_ignoredPattern : ignoredPattern.Reads s before piece behind ↔
    behind = [] ∧ ((∃ e ∈ ignoredExtensions, piece.map foldCase = '.' :: e.toList) ∨
      (before = [] ∧ piece.map foldCase = "go.sum".toList)) := by
  have hdot : (".".toList).all isSmall = true := by decide +kernel
  have hsum : ("go.sum".toList).all isSmall = true := by decide +kernel
  have hending (before piece behind : List Char) :
      (sequence [folded ".", extensionPattern]).Reads s before piece behind ↔
        ∃ e ∈ ignoredExtensions, piece.map foldCase = '.' :: e.toList := by
    simp only [reads_sequence_cons, reads_sequence_nil, reads_folded hs hdot, reads_extensionPattern hs]
    constructor
    · rintro ⟨front, _, rfl, hfront, back, _, rfl, ⟨e, he, hback⟩, rfl⟩
      exact ⟨e, he, by simp [hfront, hback]⟩
    · rintro ⟨e, he, hpiece⟩
      obtain ⟨front, back, rfl, hfront, hback⟩ :=
        List.map_eq_append_iff.mp (hpiece.trans (rfl : _ = ".".toList ++ e.toList))
      exact ⟨front, _, rfl, hfront, back, [], by simp, ⟨e, he, hback⟩, rfl⟩
  have hwhole (before piece behind : List Char) :
      (sequence [.start, folded "go.sum"]).Reads s before piece behind ↔
        before = [] ∧ piece.map foldCase = "go.sum".toList := by
    rw [reads_start_cons]
    simp only [reads_sequence_cons, reads_sequence_nil, reads_folded hs hsum]
    refine and_congr_right fun _ => ?_
    constructor
    · rintro ⟨front, _, rfl, hfront, rfl⟩
      rwa [List.append_nil]
    · exact fun h => ⟨piece, [], by simp, h, rfl⟩
  rw [ignoredPattern, reads_sequence_cons]
  simp only [Reads, hending, hwhole, reads_stop]
  constructor
  · rintro ⟨front, _, rfl, hread, rfl, rfl⟩
    rw [List.append_nil]
    exact ⟨rfl, hread⟩
  · rintro ⟨rfl, hread⟩
    exact ⟨piece, [], by simp, hread, rfl, rfl⟩

end Names

/-- **Ignored names are found by their pattern.** -/
theorem isIgnored_eq_occurs (name : String) :
    isIgnored name = ignoredPattern.occurs { text := name.toList.toArray } := by
  have hregular : ignoredPattern.isRegular = true := by decide +kernel
  rw [Bool.eq_iff_iff, isIgnored_iff, occurs_iff hregular]
  simp only [reads_ignoredPattern (s := { text := name.toList.toArray }) rfl]
  constructor
  · rintro (hsum | ⟨e, he, hsuffix⟩)
    · exact ⟨[], name.toList, [], by simp, rfl, .inr ⟨rfl, hsum⟩⟩
    · obtain ⟨front, hfront⟩ := hsuffix
      obtain ⟨before, piece, hname, -, hpiece⟩ := List.map_eq_append_iff.mp hfront.symm
      exact ⟨before, piece, [], by simpa using hname, rfl, .inl ⟨e, he, hpiece⟩⟩
  · rintro ⟨before, piece, _, htext, rfl, hread⟩
    have hname : name.toList = before ++ piece := by simpa using htext
    rcases hread with ⟨e, he, hpiece⟩ | ⟨rfl, hpiece⟩
    · refine .inr ⟨e, he, ?_⟩
      rw [hname, List.map_append, hpiece]
      exact List.suffix_append _ _
    · exact .inl (by rwa [hname, List.nil_append])

end LintSuite
