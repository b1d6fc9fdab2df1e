import LintSuite.Spelling
import Mathlib

/-!
# Words in small letters

A text is put into small letters character by character, and only a capital sigma asks for what stands
around it: it looks both ways, past all that does not break a word, for a letter with case
(`SeesCase`).  How far it looks has no bound, so the small form of a text is in general not made of
the small forms of its parts.

It is where the parts are set off by commas.  A comma stops the look in either direction
(`meetsCased_append_comma`, `lowerAfter_behind_comma`), so a text with a comma in it falls into two
texts that know nothing of each other (`lowerAfter_append_comma`), and words that are joined by commas
are put into small letters one by one (`lower_commaJoined`).  With that the command that checks the
spelling of a whole tree is settled (`isTreeCommand_command`).

### Design decisions

**A relation beside the fold.**  The text is put into small letters in one pass that remembers what
stood before.  `SmallAt` says for one place what its small form is, from both sides, and does not depend
on the pass; that it has one solution shows that the two agree (`inSmallLetters_iff`).

**A comma is enough.**  What is shown of a comma holds for any character that neither has case nor may
be looked past.  No more is needed, since words never hold commas and are joined by nothing else.

### What is load-bearing

`lowerAfter_append_comma`.  The pass remembers all that it has seen, and behind a comma that memory
makes no difference, in whatever state it arrives there.
-/

namespace LintSuite

namespace Text

/-! ### The rule for small letters -/

/-- **A letter with case in sight**, looking along a text past what does not break a word. -/
def SeesCase (cs : List Char) : Prop :=
  ∃ passed c rest, cs = passed ++ c :: rest ∧ (∀ d ∈ passed, isCaseIgnorable d = true) ∧
    isCaseIgnorable c = false ∧ isCased c = true

/-- **The small form of a character in its place**, between what stands before and behind it. -/
inductive SmallAt (before behind : List Char) : Char → List Char → Prop
  /-- A sigma that ends a word. -/
  | final (hbefore : SeesCase before.reverse) (hbehind : ¬ SeesCase behind) :
      SmallAt before behind 'Σ' ['ς']
  /-- Any other sigma. -/
  | inner (h : SeesCase before.reverse → SeesCase behind) : SmallAt before behind 'Σ' ['σ']
  /-- Any other character. -/
  | other {c : Char} (hc : c ≠ 'Σ') : SmallAt before behind c (smallForm c)

/-- The small form of the rest of a text, behind what stands before it. -/
inductive SmallFrom : List Char → List Char → List Char → Prop
  /-- Nothing is left. -/
  | nil (before : List Char) : SmallFrom before [] []
  /-- A character in its place, and those behind it. -/
  | cons {before behind form small : List Char} {c : Char} (h : SmallAt before behind c form)
      (hrest : SmallFrom (before ++ [c]) behind small) :
      SmallFrom before (c :: behind) (form ++ small)

/-- **A text in small letters**: every character in the small form that it has in its place. -/
def InSmallLetters (s small : String) : Prop :=
  SmallFrom [] s.toList small.toList

theorem meetsCased_nil : meetsCased [] = false := rfl

theorem meetsCased_cons (c : Char) (cs : List Char) :
    meetsCased (c :: cs) = if isCaseIgnorable c then meetsCased cs else isCased c := by
  cases h : isCaseIgnorable c <;> simp [meetsCased, h]

theorem meetsCased_iff {cs : List Char} : meetsCased cs = true ↔ SeesCase cs := by
  induction cs with
  | nil => simp [meetsCased_nil, SeesCase]
  | cons c cs ih =>
      rw [meetsCased_cons]
      constructor
      · intro h
        split_ifs at h with hc
        · obtain ⟨passed, d, rest, rfl, hpassed, hd⟩ := ih.mp h
          exact ⟨c :: passed, d, rest, rfl, List.forall_mem_cons.mpr ⟨hc, hpassed⟩, hd⟩
        · exact ⟨[], c, cs, rfl, by simp, by simpa using hc, h⟩
      · rintro ⟨passed, d, rest, hcs, hpassed, hd, hcased⟩
        cases passed with
        | nil =>
            obtain ⟨rfl, -⟩ := List.cons.inj hcs
            rw [if_neg (by simp [hd]), hcased]
        | cons e passed =>
            obtain ⟨rfl, rfl⟩ := List.cons.inj hcs
            obtain ⟨hc, hpassed⟩ := List.forall_mem_cons.mp hpassed
            rw [if_pos hc, ih]
            exact ⟨passed, d, rest, rfl, hpassed, hd, hcased⟩

/-- A character in its place has one small form. -/
theorem smallAt_iff {before behind form : List Char} {c : Char} :
    SmallAt before behind c form ↔
      form = if c == 'Σ' then
        (if meetsCased before.reverse && !meetsCased behind then ['ς'] else ['σ'])
      else smallForm c := by
  constructor
  · intro h
    cases h with
    | final hbefore hbehind =>
        rw [← meetsCased_iff] at hbefore hbehind
        simp [hbefore, hbehind]
    | inner h =>
        rw [← meetsCased_iff, ← meetsCased_iff] at h
        rw [beq_self_eq_true, if_pos rfl, if_neg (by simpa using h)]
    | other hc => rw [if_neg (by simpa using hc)]
  · rintro rfl
    split_ifs with hc hends
    · obtain rfl := eq_of_beq hc
      rw [Bool.and_eq_true, Bool.not_eq_true', Bool.eq_false_iff] at hends
      exact .final (meetsCased_iff.mp hends.1) (meetsCased_iff.not.mp hends.2)
    · obtain rfl := eq_of_beq hc
      refine .inner fun hbefore => meetsCased_iff.mp ?_
      simpa [meetsCased_iff.mpr hbefore] using hends
    · exact .other (by simpa using hc)

theorem smallFrom_iff {before cs small : List Char} :
    SmallFrom before cs small ↔ small = lowerAfter before.reverse cs := by
  induction cs generalizing before small with
  | nil =>
      constructor
      · rintro ⟨⟩
        rfl
      · rintro rfl
        exact .nil before
  | cons c cs ih =>
      constructor
      · rintro (_ | ⟨h, hrest⟩)
        rw [smallAt_iff.mp h, ih.mp hrest, List.reverse_concat]
        rfl
      · rintro rfl
        rw [lowerAfter]
        refine .cons (smallAt_iff.mpr rfl) (ih.mpr ?_)
        rw [List.reverse_concat]

/-- **A text has one form in small letters.** -/
theorem inSmallLetters_iff {s small : String} : InSmallLetters s small ↔ small = lower s := by
  rw [InSmallLetters, smallFrom_iff, lower, ← String.toList_inj, String.toList_ofList,
    List.reverse_nil]

/-! ### Commas -/

/-- What stands behind a comma is out of sight. -/
theorem meetsCased_append_comma (cs ds : List Char) :
    meetsCased (cs ++ ',' :: ds) = meetsCased cs := by
  induction cs with
  | nil => exact stops_comma ds
  | cons c cs ih => rw [List.cons_append, meetsCased_cons, meetsCased_cons, ih]

/-- So is what stands before one, looking back. -/
theorem lowerAfter_behind_comma (before further cs : List Char) :
    lowerAfter (before ++ ',' :: further) cs = lowerAfter before cs := by
  induction cs generalizing before with
  | nil => rfl
  | cons c cs ih =>
      rw [lowerAfter, lowerAfter, meetsCased_append_comma, ← List.cons_append, ih]

/-- **A comma parts a text**: either side is put into small letters by itself. -/
theorem lowerAfter_append_comma (before cs ds : List Char) :
    lowerAfter before (cs ++ ',' :: ds) = lowerAfter before cs ++ ',' :: lowerAfter [] ds := by
  induction cs generalizing before with
  | nil =>
      have hcomma : smallForm ',' = [','] := by decide
      rw [List.nil_append, lowerAfter, lowerAfter, if_neg (by decide), hcomma]
      exact congrArg (',' :: ·) (lowerAfter_behind_comma [] before ds)
  | cons c cs ih =>
      rw [List.cons_append, lowerAfter, lowerAfter, meetsCased_append_comma, ih,
        List.append_assoc]

end Text

namespace Tool

theorem toList_commaJoined_cons_cons (word next : String) (words : List String) :
    (commaJoined (word :: next :: words)).toList =
      word.toList ++ ',' :: (commaJoined (next :: words)).toList := by
  simp [commaJoined]

/-- **Words joined by commas are put into small letters one by one.** -/
theorem lower_commaJoined (words : List String) :
    Text.lower (commaJoined words) = commaJoined (words.map Text.lower) := by
  induction words with
  | nil => rfl
  | cons word words ih =>
      cases words with
      | nil => simp [commaJoined]
      | cons next words =>
          rw [Text.lower, toList_commaJoined_cons_cons, Text.lowerAfter_append_comma,
            ← String.toList_inj, String.toList_ofList, List.map_cons, List.map_cons,
            toList_commaJoined_cons_cons, ← List.map_cons, ← ih, Text.lower, Text.lower,
            String.toList_ofList, String.toList_ofList]

end Tool

/-- **The pieces of a text between commas.** -/
def commaPieces (text : String) : List String :=
  (text.toList.splitOn ',').map String.ofList

/-- Joined texts have their pieces one after another. -/
theorem commaPieces_commaJoined {texts : List String} (h : texts ≠ []) :
    commaPieces (Tool.commaJoined texts) = texts.flatMap commaPieces := by
  induction texts with
  | nil => exact absurd rfl h
  | cons text texts ih =>
      cases texts with
      | nil => simp [Tool.commaJoined]
      | cons next texts =>
          have hrest := ih (List.cons_ne_nil _ _)
          rw [commaPieces] at hrest
          rw [commaPieces, Tool.toList_commaJoined_cons_cons, List.splitOn_append_cons_self,
            List.map_append, hrest, List.flatMap_cons]
          rfl

/-! ### The command -/

namespace Spelling

/-- **The option for words to ignore**: none without words, else their small forms between commas. -/
inductive IgnoresWords : List String → List String → Prop
  /-- There are no words. -/
  | none : IgnoresWords [] []
  /-- There are some. -/
  | some {ignore small : List String} (hne : ignore ≠ [])
      (hsmall : List.Forall₂ Text.InSmallLetters ignore small) :
      IgnoresWords ignore ["-L", String.intercalate "," small]

/-- **The command that checks the spelling of a whole tree**: it ignores the words, and what it skips
are the pieces of the entries that the user names and then every glob that is always skipped. -/
def IsTreeCommand (ignore skip argv : List String) : Prop :=
  ∃ words skipped, argv = ["codespell", "-d", "-f"] ++ words ++ ["-S", skipped] ∧
    IgnoresWords ignore words ∧ commaPieces skipped = skip.flatMap commaPieces ++ skippedGlobs

/-- The globs that are always skipped have no comma in them. -/
theorem flatMap_commaPieces_skippedGlobs : skippedGlobs.flatMap commaPieces = skippedGlobs := by
  decide +kernel

/-- **The command tells the words apart, and the globs.** -/
theorem isTreeCommand_command (ignore skip : List String) :
    IsTreeCommand ignore skip (command ignore skip) := by
  refine ⟨_, _, rfl, ?_, ?_⟩
  · cases ignore with
    | nil => exact .none
    | cons word words =>
        rw [if_neg (by simp), Tool.lower_commaJoined]
        refine .some (List.cons_ne_nil _ _) ?_
        rw [List.forall₂_map_right_iff, List.forall₂_same]
        exact fun _ _ => Text.inSmallLetters_iff.mpr rfl
  · have hne : skip ++ skippedGlobs ≠ [] := by simp [skippedGlobs]
    rw [commaPieces_commaJoined hne, List.flatMap_append, flatMap_commaPieces_skippedGlobs]

/-- A sigma at the end of a word is final there, and not for a letter behind the comma. -/
example : command ["ΟΔΟΣ", "ΑΣ"] ["a,b"] =
    ["codespell", "-d", "-f", "-L", "οδος,ας", "-S",
      "a,b," ++ String.intercalate "," skippedGlobs] := by
  decide +kernel

end Spelling

end LintSuite
