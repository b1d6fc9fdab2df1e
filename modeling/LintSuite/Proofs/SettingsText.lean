import LintSuite.Proofs.JsonNumber
import LintSuite.Proofs.Utf8
import LintSuite.Settings.File

/-!
# Reading settings back

What is written of settings is read as the same settings (`read_written`), from the bytes on.  The
writer is followed part by part: each part is read to its end by the reader meant for it, wherever
it stands (`readString_written`, `readStrings_written`, `readField_written`), and each member adds
its setting to those that were read before it (`readMembers_member`, `readMembers_further`).
Nothing in the last depends on the order of the members, only on that none stands twice
(`readAt_objectText`).

Of the fraction among the settings nothing is assumed but that its own text is read as it; the
reading of a number is local, so it is read so among the other members too.

### Design decisions

**Forward, in place.**  Each lemma follows the reader over a part of the written text, with anything
behind it.  No lemma mentions the beginning of the text; where the reader stands is carried by the
cursor, and its position, which only faults use, is computed along.

**The number is a parameter.**  How a fraction is printed and read is left open, and `ReadsBack` asks
for one thing: read alone, its text gives the fraction.  That this extends to the text of all settings
is what locality is for.

### What is load-bearing

`readMembers_further`, by induction on the members that are left.  It carries along which settings were
seen and what was taken over, in any order, which makes the order in which settings are written
irrelevant.
-/

namespace LintSuite.Settings

open Json

/-! ### Strings -/

theorem hexValue?_hexDigit {n : Nat} (h : n < 16) : hexValue? (hexDigit n) = some n := by
  interval_cases n <;> rfl

/-- The value of an escape that stands for a control character. -/
theorem escapeValue_of_control {c : Char} (h : c.toNat < 0x20) :
    escapeValue true c.toNat none = .ok (.plain, [c]) := by
  have hlow : isLowSurrogate c.toNat = false := by
    rw [isLowSurrogate, decide_eq_false (by omega), Bool.false_and]
  have hhigh : isHighSurrogate c.toNat = false := by
    rw [isHighSurrogate, decide_eq_false (by omega), Bool.false_and]
  simp only [escapeValue, hlow, hhigh, Char.ofNat_toNat]
  rfl

/-- **An escaped character is read back.** -/
theorem readTextFrom_escaped (c : Char) (before rest : List Char) (p : Position) :
    readTextFrom true .plain before p (escaped c ++ rest) =
      readTextFrom true .plain (c :: before) (p.afterAll (escaped c)) rest := by
  rw [escaped]
  split_ifs with hquote hbackslash hback hfeed hline hreturn htab hcontrol
  · subst hquote
    rfl
  · subst hbackslash
    rfl
  · subst hback
    rfl
  · subst hfeed
    rfl
  · subst hline
    rfl
  · subst hreturn
    rfl
  · subst htab
    rfl
  · have hzero : hexValue? '0' = some 0 := rfl
    have hfirst := hexValue?_hexDigit (n := c.toNat / 16) (by omega)
    have hsecond := hexValue?_hexDigit (n := c.toNat % 16) (by omega)
    simp [readTextFrom, hzero, hfirst, hsecond, Nat.div_add_mod', escapeValue_of_control hcontrol]
  · simp only [List.singleton_append, readTextFrom]
    rw [if_neg hquote, if_neg hbackslash, if_neg hcontrol]
    rfl

/-- The characters of a string are read up to its closing quote. -/
theorem readTextFrom_flatMap (cs before rest : List Char) (p : Position) :
    readTextFrom true .plain before p (cs.flatMap escaped ++ '"' :: rest) =
      .ok (before.reverse ++ cs, ⟨rest, p.afterAll (cs.flatMap escaped ++ ['"'])⟩) := by
  induction cs generalizing before p with
  | nil => simp [readTextFrom]
  | cons c cs ih =>
      rw [List.flatMap_cons, List.append_assoc, readTextFrom_escaped, ih]
      simp

theorem readText_flatMap (s : String) (rest : List Char) (p : Position) :
    readText ⟨s.toList.flatMap escaped ++ '"' :: rest, p⟩ =
      .ok (s, ⟨rest, p.afterAll (s.toList.flatMap escaped ++ ['"'])⟩) := by
  rw [readText, readTextFrom_flatMap]
  simp only [List.reverse_nil, List.nil_append, String.ofList_toList]

/-- **A written string is read back**, whatever follows it. -/
theorem readString_written (s : String) (rest : List Char) (p : Position) :
    readString ⟨writtenString s ++ rest, p⟩ = .ok (s, ⟨rest, p.afterAll (writtenString s)⟩) := by
  have hrest : writtenString s ++ rest = '"' :: (s.toList.flatMap escaped ++ '"' :: rest) := by
    simp [writtenString]
  rw [hrest, readString, Cursor.skipSpace_of_not_isSpace rfl]
  exact readText_flatMap s rest (p.after '"')

/-! ### Lists of strings -/

/-- A text with a comma for each entry of a list is at least as long as the list. -/
theorem length_le_flatMap_comma {α : Type} (l : List α) (text : α → List Char) :
    l.length ≤ (l.flatMap fun a => ',' :: text a).length := by
  induction l with
  | nil => exact Nat.zero_le _
  | cons a l ih =>
      rw [List.flatMap_cons, List.length_append, List.length_cons, List.length_cons]
      omega

/-- The elements of a list behind the first one. -/
def furtherElements (ss : List String) : List Char :=
  ss.flatMap fun s => ',' :: ("\n    ".toList ++ writtenString s)

theorem writtenElements_cons (s : String) (ss : List String) :
    writtenElements (s :: ss) = "\n    ".toList ++ (writtenString s ++ furtherElements ss) := by
  induction ss generalizing s with
  | nil => simp [writtenElements, furtherElements]
  | cons t ss ih => simp [writtenElements, furtherElements, ih]

theorem readElement?_first (s : String) (rest : List Char) (p : Position) :
    readElement? true ⟨"\n    ".toList ++ (writtenString s ++ rest), p⟩ =
      .ok (true, ⟨writtenString s ++ rest, p.afterAll "\n    ".toList⟩) := rfl

theorem readElement?_further (s : String) (rest : List Char) (p : Position) :
    readElement? false ⟨',' :: ("\n    ".toList ++ (writtenString s ++ rest)), p⟩ =
      .ok (true, ⟨writtenString s ++ rest, p.afterAll (',' :: "\n    ".toList)⟩) := rfl

theorem readElement?_end (first : Bool) (rest : List Char) (p : Position) :
    readElement? first ⟨"\n  ]".toList ++ rest, p⟩ =
      .ok (false, ⟨']' :: rest, p.afterAll "\n  ".toList⟩) := rfl

/-- An element is read, and the list goes on behind it. -/
theorem readStringsFrom_element {first : Bool} {cur : Cursor} {s : String} {rest : List Char}
    {p : Position} (hmore : readElement? first cur = .ok (true, ⟨writtenString s ++ rest, p⟩))
    (steps : Nat) (before : List String) :
    readStringsFrom (steps + 1) first before cur =
      readStringsFrom steps false (s :: before) ⟨rest, p.afterAll (writtenString s)⟩ := by
  rw [readStringsFrom, hmore]
  simp only [bind, Except.bind, if_true, readString_written]

/-- The elements behind the first one are read up to the end of the list. -/
theorem readStringsFrom_further {ss : List String} {steps : Nat} (hsteps : ss.length < steps)
    (before : List String) (rest : List Char) (p : Position) :
    readStringsFrom steps false before ⟨furtherElements ss ++ ("\n  ]".toList ++ rest), p⟩ =
      .ok (before.reverse ++ ss, ⟨rest, p.afterAll (furtherElements ss ++ "\n  ]".toList)⟩) := by
  induction ss generalizing before p steps with
  | nil =>
      obtain ⟨steps, rfl⟩ := Nat.exists_eq_add_one_of_ne_zero (Nat.ne_zero_of_lt hsteps)
      rw [furtherElements, List.flatMap_nil, List.nil_append, readStringsFrom, readElement?_end]
      simp [bind, Except.bind]
  | cons s ss ih =>
      -- Each element takes one step, so the bound falls with their number.
      obtain ⟨steps, rfl⟩ := Nat.exists_eq_add_one_of_ne_zero (Nat.ne_zero_of_lt hsteps)
      have htext : furtherElements (s :: ss) ++ ("\n  ]".toList ++ rest) =
          ',' :: ("\n    ".toList ++
            (writtenString s ++ (furtherElements ss ++ ("\n  ]".toList ++ rest)))) := by
        simp [furtherElements]
      rw [htext, readStringsFrom_element (readElement?_further s _ p),
        ih (Nat.lt_of_succ_lt_succ hsteps)]
      simp [furtherElements]

/-- **A written list is read back**, whatever follows it. -/
theorem readStrings_written (ss : List String) (rest : List Char) (p : Position) :
    readStrings ⟨writtenList ss ++ rest, p⟩ = .ok (ss, ⟨rest, p.afterAll (writtenList ss)⟩) := by
  cases ss with
  | nil => rfl
  | cons s ss =>
      have hlist : writtenList (s :: ss) =
          '[' :: (writtenElements (s :: ss) ++ "\n  ]".toList) := rfl
      have htext : writtenElements (s :: ss) ++ "\n  ]".toList ++ rest =
          "\n    ".toList ++
            (writtenString s ++ (furtherElements ss ++ ("\n  ]".toList ++ rest))) := by
        rw [writtenElements_cons]
        simp
      have hsteps :
          ss.length < (writtenElements (s :: ss) ++ "\n  ]".toList ++ rest).length + 1 := by
        have hlength := length_le_flatMap_comma ss fun s => "\n    ".toList ++ writtenString s
        rw [htext]
        simp only [List.length_append, furtherElements]
        omega
      rw [hlist, List.cons_append, readStrings, Cursor.skipSpace_of_not_isSpace rfl]
      simp only [List.length_cons, Cursor.next_cons]
      rw [htext] at hsteps ⊢
      rw [readStringsFrom_element (readElement?_first s _ _), readStringsFrom_further hsteps,
        writtenElements_cons]
      simp

/-! ### Values -/

/-- What is written for a setting. -/
def writtenValue (s : Settings) : Field → List Char
  | .confidence => (Decimal.render Decimal.stored s.confidence).toList
  | .ignore => writtenList s.ignore
  | .length => Decimal.digitsOf s.length.toNat
  | .complexity => Decimal.digitsOf s.complexity.toNat
  | .prune => writtenList s.prune
  | .quiet => (if s.quiet then "true" else "false").toList
  | .skip => writtenList s.skip

/-- Settings with one setting taken over from others. -/
def takeOver (s file : Settings) : Field → Settings
  | .confidence => { file with confidence := s.confidence }
  | .ignore => { file with ignore := s.ignore }
  | .length => { file with length := s.length }
  | .complexity => { file with complexity := s.complexity }
  | .prune => { file with prune := s.prune }
  | .quiet => { file with quiet := s.quiet }
  | .skip => { file with skip := s.skip }

/-- Settings whose fraction is read from the text that is written for it, which stands alone. -/
def ReadsBack (s : Settings) : Prop :=
  ∃ behind, readFloat (.ofText (Decimal.render Decimal.stored s.confidence)) =
    .ok (s.confidence, behind) ∧ behind.rest = []

theorem readsBack_iff {s : Settings} :
    s.ReadsBack ↔
      (match readFloat (.ofText (Decimal.render Decimal.stored s.confidence)) with
        | .ok (x, behind) => decide (x = s.confidence) && behind.rest.isEmpty
        | .error _ => false) = true := by
  rw [ReadsBack]
  cases readFloat (.ofText (Decimal.render Decimal.stored s.confidence)) with
  | error e => simp
  | ok read => simp [Prod.ext_iff]

instance (s : Settings) : Decidable s.ReadsBack :=
  decidable_of_iff _ readsBack_iff.symm

theorem readBool_written (b : Bool) (rest : List Char) (p : Position) :
    readBool ⟨(if b then "true" else "false").toList ++ rest, p⟩ =
      .ok (b, ⟨rest, p.afterAll (if b then "true" else "false").toList⟩) := by
  cases b <;> rfl

/-- A blank in front of a value does not matter. -/
theorem readField_space (file : Settings) (field : Field) (rest : List Char) (p : Position) :
    readField file field ⟨' ' :: rest, p⟩ = readField file field ⟨rest, p.after ' '⟩ := by
  cases field <;> rfl

/-- **A written value is read as the setting that it was written for.** -/
theorem readField_written {s : Settings} (hs : s.ReadsBack) (file : Settings) (field : Field) :
    Takes (readField file field) (s.writtenValue field) (s.takeOver file field) := by
  intro rest p hrest
  cases field with
  | confidence =>
      obtain ⟨behind, hread, hend⟩ := hs
      have htakes := readFloat_isLocal hread hend rest p hrest
      simp only [readField, writtenValue, htakes, bind, Except.bind, takeOver]
  | ignore => simp only [readField, writtenValue, readStrings_written, bind, Except.bind, takeOver]
  | length =>
      have hlength : s.length.toNat < UInt64.size := s.length.toNat_lt
      have htakes := takes_digitsOf "usize" hlength le_rfl rest p hrest
      simp only [readField, writtenValue, htakes, bind, Except.bind, takeOver, UInt64.ofNat_toNat]
  | complexity =>
      have hcomplexity : s.complexity.toNat < UInt32.size := s.complexity.toNat_lt
      have htakes := takes_digitsOf "u32" hcomplexity (by decide) rest p hrest
      simp only [readField, writtenValue, htakes, bind, Except.bind, takeOver, UInt32.ofNat_toNat]
  | prune => simp only [readField, writtenValue, readStrings_written, bind, Except.bind, takeOver]
  | quiet => simp only [readField, writtenValue, readBool_written, bind, Except.bind, takeOver]
  | skip => simp only [readField, writtenValue, readStrings_written, bind, Except.bind, takeOver]

/-! ### Members -/

theorem Field.ofKey?_key (field : Field) : Field.ofKey? field.key = some field := by
  cases field <;> rfl

/-- The member of a setting, with its line. -/
def memberOf (s : Settings) (field : Field) : List Char :=
  writtenMember field.key (s.writtenValue field)

/-- The members behind the first one. -/
def furtherMembers (s : Settings) (fields : List Field) : List Char :=
  fields.flatMap fun field => ',' :: s.memberOf field

/-- What stands behind the quote that starts the key of a member. -/
def behindKeyStart (s : Settings) (field : Field) : List Char :=
  field.key.toList.flatMap escaped ++ '"' :: ':' :: ' ' :: s.writtenValue field

theorem memberOf_eq (s : Settings) (field : Field) :
    s.memberOf field = "\n  \"".toList ++ s.behindKeyStart field := by
  simp [memberOf, writtenMember, writtenString, behindKeyStart]

theorem readKeyStart?_first (rest : List Char) (p : Position) :
    readKeyStart? true ⟨"\n  \"".toList ++ rest, p⟩ =
      .ok (true, ⟨rest, p.afterAll "\n  \"".toList⟩) := rfl

theorem readKeyStart?_further (rest : List Char) (p : Position) :
    readKeyStart? false ⟨',' :: ("\n  \"".toList ++ rest), p⟩ =
      .ok (true, ⟨rest, p.afterAll (',' :: "\n  \"".toList)⟩) := rfl

theorem readKeyStart?_end (first : Bool) (rest : List Char) (p : Position) :
    readKeyStart? first ⟨"\n\x7d".toList ++ rest, p⟩ =
      .ok (false, ⟨'\x7d' :: rest, p.after '\n'⟩) := rfl

/-- **A member is read**, and the object goes on behind it. -/
theorem readMembers_member {s : Settings} (hs : s.ReadsBack) {field : Field} {first : Bool}
    {cur : Cursor} {rest : List Char} {p : Position}
    (hmore : readKeyStart? first cur = .ok (true, ⟨s.behindKeyStart field ++ rest, p⟩))
    (hrest : EndsValue rest) {seen : List Field} (hseen : field ∉ seen) (steps : Nat)
    (file : Settings) :
    readMembers (steps + 1) first seen file cur =
      readMembers steps false (field :: seen) (s.takeOver file field)
        ⟨rest, p.afterAll (s.behindKeyStart field)⟩ := by
  have htext : s.behindKeyStart field ++ rest =
      field.key.toList.flatMap escaped ++ '"' :: ':' :: ' ' :: (s.writtenValue field ++ rest) := by
    simp [behindKeyStart]
  have hcolon : ∀ rest p, readColon ⟨':' :: rest, p⟩ = .ok ⟨rest, p.after ':'⟩ := fun _ _ => rfl
  rw [readMembers, hmore, htext]
  simp only [bind, Except.bind, if_true, readText_flatMap, Field.ofKey?_key, List.contains_eq_mem,
    hseen, decide_false, Bool.false_eq_true, if_false, hcolon, readField_space,
    readField_written hs file field rest _ hrest]
  simp [behindKeyStart]

/-- Behind a member something follows: the comma before the next one, or the end of the object. -/
theorem endsValue_furtherMembers (s : Settings) (fields : List Field) (rest : List Char) :
    EndsValue (s.furtherMembers fields ++ ("\n\x7d".toList ++ rest)) := by
  cases fields with
  | nil => exact ⟨'\n', _, rfl, .inr rfl⟩
  | cons field fields => exact ⟨',', _, rfl, .inl rfl⟩

/-- **Members are read up to the end of the object**, in any order, if none was read before. -/
theorem readMembers_further {s : Settings} (hs : s.ReadsBack) {fields : List Field} {steps : Nat}
    (hsteps : fields.length < steps) {seen : List Field} (hfresh : ∀ f ∈ fields, f ∉ seen)
    (hnodup : fields.Nodup) (file : Settings) (rest : List Char) (p : Position) :
    readMembers steps false seen file ⟨s.furtherMembers fields ++ ("\n\x7d".toList ++ rest), p⟩ =
      .ok (fields.foldl s.takeOver file,
        ⟨rest, p.afterAll (s.furtherMembers fields ++ "\n\x7d".toList)⟩) := by
  -- What was seen grows by each member, and none of those to come is among it.
  induction fields generalizing seen file p steps with
  | nil =>
      obtain ⟨steps, rfl⟩ := Nat.exists_eq_add_one_of_ne_zero (Nat.ne_zero_of_lt hsteps)
      rw [furtherMembers, List.flatMap_nil, List.nil_append, readMembers, readKeyStart?_end]
      rfl
  | cons field fields ih =>
      obtain ⟨steps, rfl⟩ := Nat.exists_eq_add_one_of_ne_zero (Nat.ne_zero_of_lt hsteps)
      obtain ⟨hfield, hfields⟩ := List.nodup_cons.mp hnodup
      have htext : s.furtherMembers (field :: fields) ++ ("\n\x7d".toList ++ rest) =
          ',' :: ("\n  \"".toList ++ (s.behindKeyStart field ++
            (s.furtherMembers fields ++ ("\n\x7d".toList ++ rest)))) := by
        simp [furtherMembers, memberOf_eq]
      have hnew : ∀ f ∈ fields, f ∉ field :: seen := by
        intro f hf hmem
        rcases List.mem_cons.mp hmem with rfl | hseen
        · exact hfield hf
        · exact hfresh f (List.mem_cons_of_mem _ hf) hseen
      rw [htext, readMembers_member hs (readKeyStart?_further _ p)
          (endsValue_furtherMembers s fields rest) (hfresh field List.mem_cons_self),
        ih (Nat.lt_of_succ_lt_succ hsteps) hnew hfields, List.foldl_cons]
      simp [furtherMembers, memberOf_eq]

/-! ### The text as a whole -/

/-- The members joined by commas. -/
theorem intercalate_members (m : List Char) (ms : List (List Char)) :
    [','].intercalate (m :: ms) = m ++ ms.flatMap (',' :: ·) := by
  induction ms generalizing m with
  | nil => simp
  | cons n ms ih =>
      rw [List.intercalate_cons_cons, ih]
      simp

/-- The text of an object with some members. -/
def objectText (s : Settings) (fields : List Field) : List Char :=
  '\x7b' :: ([','].intercalate (fields.map s.memberOf) ++ "\n\x7d".toList)

theorem objectText_cons (s : Settings) (field : Field) (fields : List Field) :
    s.objectText (field :: fields) = '\x7b' :: ("\n  \"".toList ++
      (s.behindKeyStart field ++ (s.furtherMembers fields ++ "\n\x7d".toList))) := by
  rw [objectText, List.map_cons, intercalate_members, memberOf_eq, List.flatMap_map, furtherMembers]
  simp only [List.append_assoc]

/-- **An object is read as its members**, in whatever order they stand. -/
theorem readAt_objectText {s : Settings} (hs : s.ReadsBack) (fields : List Field)
    (hne : fields ≠ []) (hnodup : fields.Nodup) (rest : List Char) (p : Position) :
    readAt ⟨s.objectText fields ++ rest, p⟩ =
      .ok (fields.foldl s.takeOver {}, ⟨rest, p.afterAll (s.objectText fields)⟩) := by
  obtain ⟨field, fields, rfl⟩ := List.exists_cons_of_ne_nil hne
  obtain ⟨hfield, hfields⟩ := List.nodup_cons.mp hnodup
  have htext : s.objectText (field :: fields) ++ rest = '\x7b' :: ("\n  \"".toList ++
      (s.behindKeyStart field ++ (s.furtherMembers fields ++ ("\n\x7d".toList ++ rest)))) := by
    rw [objectText_cons]
    simp only [List.cons_append, List.append_assoc]
  have hsteps : fields.length < (s.objectText (field :: fields) ++ rest).length := by
    have hlength := length_le_flatMap_comma fields s.memberOf
    rw [htext]
    simp only [List.length_cons, List.length_append, furtherMembers]
    omega
  have hfresh : ∀ f ∈ fields, f ∉ [field] := by
    intro f hf hmem
    exact hfield (List.mem_singleton.mp hmem ▸ hf)
  rw [htext] at hsteps ⊢
  rw [readAt, Cursor.skipSpace_of_not_isSpace rfl]
  simp only [Cursor.next_cons]
  rw [readMembers_member hs (readKeyStart?_first _ _) (endsValue_furtherMembers s fields rest)
      List.not_mem_nil, readMembers_further hs hsteps hfresh hfields, List.foldl_cons,
    objectText_cons]
  simp only [Position.afterAll_append, Position.afterAll_cons]

/-- All settings are written, each once. -/
theorem written_toList (s : Settings) : s.written.toList = s.objectText Field.all ++ ['\n'] := by
  rw [written, String.toList_ofList]
  change '\x7b' :: ([','].intercalate (Field.all.map s.memberOf) ++ ['\n', '\x7d', '\n']) = _
  simp [objectText]

/-- All settings taken over are the settings. -/
theorem foldl_takeOver (s file : Settings) : Field.all.foldl s.takeOver file = s := rfl

theorem read_of_readsBack {s : Settings} (hs : s.ReadsBack) : read s.written = .ok s := by
  have hall := readAt_objectText hs Field.all (by decide) (by decide) ['\n'] {}
  rw [read, Cursor.ofText, written_toList, hall, foldl_takeOver]
  rfl

/-- **Settings are read back from what is written of them**, if the fraction among them is read back
from its own text: the bytes that are saved are a text, and it is read as the settings. -/
theorem read_written {s : Settings} (hs : s.ReadsBack) :
    Text.Utf8.decode? s.bytes = some s.written.toList ∧ read s.written = .ok s :=
  ⟨Text.Utf8.decode?_encode _, read_of_readsBack hs⟩

/-- Settings with strings that need every kind of escape, and with a list that is empty. -/
def quoted : Settings where
  ignore := ["", "a\"b\\c", "\x00\x08\n\x1f\x7f", "é\u2028😀"]
  quiet := true

theorem read_written_quoted :
    quoted.ReadsBack ∧
      Text.Utf8.decode? quoted.bytes = some quoted.written.toList ∧
        read quoted.written = .ok quoted :=
  have h : quoted.ReadsBack := by decide +kernel
  ⟨h, read_written h⟩

end LintSuite.Settings
