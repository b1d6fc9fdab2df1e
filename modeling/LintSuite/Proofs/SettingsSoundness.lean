import LintSuite.Proofs.JsonSoundness
import LintSuite.Proofs.SettingsObject

/-!
# What is read as settings is a container

The converse of the reading of settings: a text that is read without a fault is a text of the grammar,
and its value is an object or a list (`isElement_of_read`).

A reader of values only reads values (`ReadsValues`).  Lists and objects are read item by item, so
what is read from any place in one is the rest of it (`IsRest`), for the elements of a list of texts,
for those of a list of settings and for the members of an object alike.

### Design decisions

**One notion for all readers.**  `ReadsValues` says of a reader that whatever it reads is a value with
white space in front of it.  It is closed under going on with what was read (`ReadsValues.bind`), so the
typed readers inherit it from the readers of texts and numbers.

**Rests, not values, in loops.**  The readers of lists and objects are loops that are entered in the
middle of a container.  What they read from there is a rest (`IsRest`), with a flag that says whether
an item has been read already; the value as a whole comes together where the loop was started.

### What is load-bearing

The unknown members.  They are skipped by a machine that knows no types, and that it passes over a
value, and over nothing else, is taken from the soundness of skipping.
-/

namespace LintSuite.Settings

open Json

/-! ### Values by type -/

/-- **A reader that only reads values**, with the white space around them. -/
def ReadsValues {α : Type} (reader : Reader α) : Prop :=
  ∀ ⦃cur a behind⦄, reader cur = .ok (a, behind) →
    ∃ value text, IsElement value text ∧ cur.rest = text ++ behind.rest

/-- A reader that goes on with what a reader of values has read, without reading on. -/
theorem ReadsValues.bind {α β : Type} {reader : Reader α} (h : ReadsValues reader)
    {next : α × Cursor → Except Fault (β × Cursor)}
    (hnext : ∀ ⦃read b behind⦄, next read = .ok (b, behind) → behind = read.2) :
    ReadsValues fun cur => reader cur >>= next := by
  intro cur b behind hread
  obtain ⟨⟨a, mid⟩, hreader, hthen⟩ := exists_of_bind_eq_ok hread
  obtain rfl := hnext hthen
  exact h hreader

/-- A value behind white space that is skipped. -/
theorem element_of_skipSpace {cur behind : Cursor} {value : Value} {text : List Char}
    (hvalue : IsValue value text) (hrest : cur.skipSpace.rest = text ++ behind.rest) :
    ∃ value text, IsElement value text ∧ cur.rest = text ++ behind.rest := by
  obtain ⟨spaces, hspaces, hcur⟩ := cur.exists_areSpaces
  exact ⟨value, _, hvalue.isElement.spaces_append hspaces, by rw [hcur, hrest, List.append_assoc]⟩

theorem readAnyNumber_readsValues (wanted : String) : ReadsValues (readAnyNumber wanted) := by
  intro cur x behind h
  rw [readAnyNumber] at h
  split at h
  · cases h
  · next c tail hrest =>
    split_ifs at h with hminus hdigit
    · obtain ⟨n, text, hn, htext⟩ := isNumeral_of_skipNumber (skipNumber_of_readNumber h) true
      exact element_of_skipSpace (.number hn)
        (by rw [Cursor.rest_eq_cons_next hrest, hminus, htext]; rfl)
    · obtain ⟨n, text, hn, htext⟩ := isNumeral_of_skipNumber (skipNumber_of_readNumber h) false
      exact element_of_skipSpace (.number hn) htext
    · exact absurd h (refuse_ne_ok _ _ _)

theorem readFloat_readsValues : ReadsValues readFloat := by
  refine (readAnyNumber_readsValues "f64").bind ?_
  rintro ⟨_ | _ | _, mid⟩ x behind h <;> (cases h; rfl)

theorem readWhole_readsValues (wanted : String) (bound : Nat) :
    ReadsValues (readWhole wanted bound) := by
  refine (readAnyNumber_readsValues wanted).bind ?_
  rintro ⟨n | _ | _, mid⟩ x behind h
  · dsimp only at h
    split at h <;> cases h
    rfl
  · cases h
  · cases h

theorem readBool_readsValues : ReadsValues readBool := by
  intro cur b behind h
  rw [readBool] at h
  split at h
  · cases h
  · next c tail hrest =>
    split_ifs at h with ht hf
    · obtain ⟨after, hword, hread⟩ := exists_of_bind_eq_ok h
      cases hread
      exact element_of_skipSpace .yes
        (by rw [Cursor.rest_eq_cons_next hrest, ht, rest_of_readWord hword]; rfl)
    · obtain ⟨after, hword, hread⟩ := exists_of_bind_eq_ok h
      cases hread
      exact element_of_skipSpace .no
        (by rw [Cursor.rest_eq_cons_next hrest, hf, rest_of_readWord hword]; rfl)
    · exact absurd h (refuse_ne_ok _ _ _)

theorem readString_readsValues : ReadsValues readString := by
  intro cur s behind h
  rw [readString] at h
  split at h
  · cases h
  · next tail hrest =>
    obtain ⟨parts, text, hparts, htext⟩ := areParts_of_readText h
    exact element_of_skipSpace (.string hparts)
      (by rw [Cursor.rest_eq_cons_next hrest, htext]; simp)
  · exact absurd h (refuse_ne_ok _ _ _)

/-! ### Lists -/

/-- **In front of an element that a list goes on with** stands white space, and a comma. -/
theorem isLead_of_readElement? {first : Bool} {cur behind : Cursor}
    (h : readElement? first cur = .ok (true, behind)) :
    ∃ lead, IsLead first lead ∧ cur.rest = lead ++ behind.rest := by
  obtain ⟨spaces, hspaces, hcur⟩ := cur.exists_areSpaces
  rw [readElement?] at h
  split at h
  · cases h
  · next c tail hrest =>
    split_ifs at h with hclose hfirst hcomma
    · cases h
    · cases h
      exact ⟨spaces, hfirst ▸ hspaces, hcur⟩
    · obtain ⟨more, hmore, hnext⟩ := cur.skipSpace.next.exists_areSpaces
      rw [Bool.not_eq_true] at hfirst
      dsimp only at h
      split at h
      · cases h
      · cases h
      · cases h
        refine ⟨spaces ++ ',' :: more, hfirst ▸ ⟨spaces, more, hspaces, hmore, rfl⟩, ?_⟩
        rw [hcur, Cursor.rest_eq_cons_next hrest, hcomma, hnext]
        simp
    · cases h

/-- A list that does not go on stands in front of its end. -/
theorem close_of_readElement? {first : Bool} {cur behind : Cursor}
    (h : readElement? first cur = .ok (false, behind)) :
    ∃ spaces, AreSpaces spaces ∧ cur.rest = spaces ++ ']' :: behind.next.rest ∧
      behind.rest = ']' :: behind.next.rest := by
  obtain ⟨spaces, hspaces, hcur⟩ := cur.exists_areSpaces
  rw [readElement?] at h
  split at h
  · cases h
  · next c tail hrest =>
    split_ifs at h with hclose hfirst hcomma
    · cases h
      have hend := Cursor.rest_eq_cons_next hrest
      rw [hclose] at hend
      exact ⟨spaces, hspaces, by rw [hcur, ← hend], hend⟩
    · cases h
    · dsimp only at h
      split at h <;> cases h
    · cases h

/-- **A list of texts is read up to its end.** -/
theorem isRest_of_readStringsFrom {steps : Nat} {first : Bool} {before ss : List String}
    {cur behind : Cursor} (h : readStringsFrom steps first before cur = .ok (ss, behind)) :
    ∃ text, IsRest .list first text ∧ cur.rest = text ++ ']' :: behind.rest := by
  induction steps generalizing first before cur with
  | zero => cases h
  | succ steps ih =>
      rw [readStringsFrom] at h
      obtain ⟨⟨more, mid⟩, hmore, hread⟩ := exists_of_bind_eq_ok h
      cases more with
      | false =>
          cases hread
          obtain ⟨spaces, hspaces, hcur, -⟩ := close_of_readElement? hmore
          exact ⟨spaces, .close hspaces, hcur⟩
      | true =>
          obtain ⟨lead, hlead, hcur⟩ := isLead_of_readElement? hmore
          obtain ⟨⟨s, after⟩, hstring, hothers⟩ := exists_of_bind_eq_ok hread
          obtain ⟨value, item, hvalue, hitem⟩ := readString_readsValues hstring
          obtain ⟨text, htext, hrest⟩ := ih hothers
          refine ⟨_, htext.cons hlead ⟨value, hvalue⟩, ?_⟩
          rw [hcur, hitem, hrest]
          simp

theorem readStrings_readsValues : ReadsValues readStrings := by
  intro cur ss behind h
  rw [readStrings] at h
  split at h
  · cases h
  · next tail hrest =>
    obtain ⟨text, htext, hnext⟩ := isRest_of_readStringsFrom h
    obtain ⟨value, -, hvalue⟩ := htext.isValue
    refine element_of_skipSpace hvalue ?_
    rw [Cursor.rest_eq_cons_next hrest, hnext]
    simp [Container.opening, Container.closing]
  · exact absurd h (refuse_ne_ok _ _ _)

/-! ### Settings -/

theorem readField_readsValues (file : Settings) (field : Field) :
    ReadsValues (readField file field) := by
  cases field with
  | confidence => exact readFloat_readsValues.bind fun _ _ _ h => by cases h; rfl
  | ignore | prune | skip => exact readStrings_readsValues.bind fun _ _ _ h => by cases h; rfl
  | length | complexity =>
      exact (readWhole_readsValues _ _).bind fun _ _ _ h => by cases h; rfl
  | quiet => exact readBool_readsValues.bind fun _ _ _ h => by cases h; rfl

theorem close_of_readListEnd {cur behind : Cursor} (h : readListEnd cur = .ok behind) :
    ∃ spaces, AreSpaces spaces ∧ cur.rest = spaces ++ ']' :: behind.rest := by
  obtain ⟨spaces, hspaces, hcur⟩ := cur.exists_areSpaces
  rw [readListEnd] at h
  split at h
  · cases h
  · next tail hrest =>
    cases h
    exact ⟨spaces, hspaces, by rw [hcur, Cursor.rest_eq_cons_next hrest]⟩
  · dsimp only at h
    split at h <;> cases h
  · cases h

/-- At the end of a list no further setting is read. -/
theorem readElements_of_close {cur : Cursor} {tail : List Char} (hclose : cur.rest = ']' :: tail)
    (fields : List Field) (first : Bool) (file : Settings) :
    readElements first file cur fields = .ok (file, cur) := by
  obtain ⟨rest, p⟩ := cur
  obtain rfl : rest = ']' :: tail := hclose
  induction fields with
  | nil => rfl
  | cons field fields ih =>
      have hmore := readElement?_close first areSpaces_nil tail p
      rw [List.nil_append] at hmore
      rw [readElements, hmore]
      exact ih

/-- **Settings are read from a list up to its end.** -/
theorem isRest_of_readElements {fields : List Field} {first : Bool} {file s : Settings}
    {cur mid behind : Cursor} (h : readElements first file cur fields = .ok (s, mid))
    (hend : readListEnd mid = .ok behind) :
    ∃ text, IsRest .list first text ∧ cur.rest = text ++ ']' :: behind.rest := by
  induction fields generalizing first file cur with
  | nil =>
      cases h
      obtain ⟨spaces, hspaces, hcur⟩ := close_of_readListEnd hend
      exact ⟨spaces, .close hspaces, hcur⟩
  | cons field fields ih =>
      rw [readElements] at h
      obtain ⟨⟨more, start⟩, hmore, hread⟩ := exists_of_bind_eq_ok h
      cases more with
      | false =>
          obtain ⟨spaces, hspaces, hcur, hstart⟩ := close_of_readElement? hmore
          obtain ⟨rfl, rfl⟩ : file = s ∧ start = mid := by
            simpa [readElements_of_close hstart] using hread
          obtain ⟨others, hothers, hrest⟩ := close_of_readListEnd hend
          refine ⟨_, .close (hspaces.append hothers), ?_⟩
          rw [hcur, ← hstart, hrest, List.append_assoc]
      | true =>
          obtain ⟨lead, hlead, hcur⟩ := isLead_of_readElement? hmore
          obtain ⟨⟨taken, after⟩, hfield, hothers⟩ := exists_of_bind_eq_ok hread
          obtain ⟨value, item, hvalue, hitem⟩ := readField_readsValues file field hfield
          obtain ⟨text, htext, hrest⟩ := ih hothers
          refine ⟨_, htext.cons hlead ⟨value, hvalue⟩, ?_⟩
          rw [hcur, hitem, hrest]
          simp

/-- In front of a further key stands white space, and a comma. -/
theorem isLead_of_readKeyStart? {first : Bool} {cur behind : Cursor}
    (h : readKeyStart? first cur = .ok (true, behind)) :
    ∃ lead, IsLead first lead ∧ cur.rest = lead ++ '"' :: behind.rest := by
  obtain ⟨spaces, hspaces, hcur⟩ := cur.exists_areSpaces
  rw [readKeyStart?] at h
  split at h
  · cases h
  · next c tail hrest =>
    split_ifs at h with hclose hfirst hquote hcomma
    · cases h
    · cases h
      exact ⟨spaces, hfirst ▸ hspaces, by rw [hcur, Cursor.rest_eq_cons_next hrest, hquote]⟩
    · cases h
    · obtain ⟨more, hmore, hnext⟩ := cur.skipSpace.next.exists_areSpaces
      rw [Bool.not_eq_true] at hfirst
      dsimp only at h
      split at h
      · cases h
      · next hkey =>
        cases h
        refine ⟨spaces ++ ',' :: more, hfirst ▸ ⟨spaces, more, hspaces, hmore, rfl⟩, ?_⟩
        rw [hcur, Cursor.rest_eq_cons_next hrest, hcomma, hnext, Cursor.rest_eq_cons_next hkey]
        simp
      · cases h
      · cases h
    · cases h

theorem close_of_readKeyStart? {first : Bool} {cur behind : Cursor}
    (h : readKeyStart? first cur = .ok (false, behind)) :
    ∃ spaces, AreSpaces spaces ∧ cur.rest = spaces ++ '\x7d' :: behind.next.rest := by
  obtain ⟨spaces, hspaces, hcur⟩ := cur.exists_areSpaces
  rw [readKeyStart?] at h
  split at h
  · cases h
  · next c tail hrest =>
    split_ifs at h with hclose hfirst hquote hcomma
    · cases h
      exact ⟨spaces, hspaces, by rw [hcur, Cursor.rest_eq_cons_next hrest, hclose]⟩
    · cases h
    · cases h
    · dsimp only at h
      split at h <;> cases h
    · cases h

/-- **What is read behind a key** is a colon and a value, and the object goes on behind it. -/
theorem element_of_readMember {steps : Nat} {seen : List Field} {file s : Settings}
    {name : String} {cur behind : Cursor}
    (h : readMember steps seen file (name, cur) = .ok (s, behind)) :
    ∃ spaces value text, AreSpaces spaces ∧ IsElement value text ∧ ∃ seen file mid,
      cur.rest = spaces ++ ':' :: (text ++ mid.rest) ∧
        readMembers steps false seen file mid = .ok (s, behind) := by
  rw [readMember] at h
  split at h
  · obtain ⟨start, hcolon, hread⟩ := exists_of_bind_eq_ok h
    obtain ⟨mid, hskip, hothers⟩ := exists_of_bind_eq_ok hread
    obtain ⟨spaces, hspaces, hcur⟩ := rest_of_readColon hcolon
    obtain ⟨value, text, hvalue, hstart⟩ := isElement_of_skipValue hskip
    exact ⟨spaces, value, text, hspaces, hvalue, _, _, mid, by rw [hcur, hstart], hothers⟩
  · split at h
    · cases h
    · obtain ⟨start, hcolon, hread⟩ := exists_of_bind_eq_ok h
      obtain ⟨⟨taken, mid⟩, hfield, hothers⟩ := exists_of_bind_eq_ok hread
      obtain ⟨spaces, hspaces, hcur⟩ := rest_of_readColon hcolon
      obtain ⟨value, text, hvalue, hstart⟩ := readField_readsValues _ _ hfield
      exact ⟨spaces, value, text, hspaces, hvalue, _, _, mid, by rw [hcur, hstart], hothers⟩

/-- **The members of an object are read up to its end.** -/
theorem isRest_of_readMembers {steps : Nat} {first : Bool} {seen : List Field}
    {file s : Settings} {cur behind : Cursor}
    (h : readMembers steps first seen file cur = .ok (s, behind)) :
    ∃ text, IsRest .object first text ∧ cur.rest = text ++ '\x7d' :: behind.rest := by
  induction steps generalizing first seen file cur with
  | zero => cases h
  | succ steps ih =>
      cases hmore : readKeyStart? first cur with
      | error fault =>
          rw [readMembers, hmore] at h
          cases h
      | ok read =>
          obtain ⟨_ | _, mid⟩ := read
          · rw [readMembers, hmore] at h
            cases h
            obtain ⟨spaces, hspaces, hcur⟩ := close_of_readKeyStart? hmore
            exact ⟨spaces, .close hspaces, hcur⟩
          · rw [readMembers_eq hmore] at h
            obtain ⟨lead, hlead, hcur⟩ := isLead_of_readKeyStart? hmore
            obtain ⟨⟨name, after⟩, hkey, hmember⟩ := exists_of_bind_eq_ok h
            obtain ⟨key, written, hparts, hmid⟩ := areParts_of_readText hkey
            obtain ⟨spaces, value, item, hspaces, hvalue, seen, file, last, hafter, hothers⟩ :=
              element_of_readMember hmember
            obtain ⟨text, htext, hrest⟩ := ih hothers
            have hitem := IsMember.colon areSpaces_nil hparts hspaces hvalue
            refine ⟨_, htext.cons hlead ⟨_, hitem⟩, ?_⟩
            rw [hcur, hmid, hafter, hrest]
            simp

/-! ### The text as a whole -/

/-- **What is read as settings is an object or a list.** -/
theorem isElement_of_readAt {cur behind : Cursor} {s : Settings}
    (h : readAt cur = .ok (s, behind)) :
    ∃ value text, value.container?.isSome ∧ IsElement value text ∧
      cur.rest = text ++ behind.rest := by
  obtain ⟨spaces, hspaces, hcur⟩ := cur.exists_areSpaces
  rw [readAt] at h
  split at h
  · cases h
  · next tail hrest =>
    obtain ⟨⟨file, mid⟩, helements, hread⟩ := exists_of_bind_eq_ok h
    obtain ⟨after, hend, hsame⟩ := exists_of_bind_eq_ok hread
    cases hsame
    obtain ⟨text, htext, hnext⟩ := isRest_of_readElements helements hend
    obtain ⟨value, hkind, hvalue⟩ := htext.isValue
    refine ⟨value, _, by rw [hkind]; rfl, hvalue.isElement.spaces_append hspaces, ?_⟩
    rw [hcur, Cursor.rest_eq_cons_next hrest, hnext]
    simp [Container.opening, Container.closing]
  · next tail hrest =>
    obtain ⟨text, htext, hnext⟩ := isRest_of_readMembers h
    obtain ⟨value, hkind, hvalue⟩ := htext.isValue
    refine ⟨value, _, by rw [hkind]; rfl, hvalue.isElement.spaces_append hspaces, ?_⟩
    rw [hcur, Cursor.rest_eq_cons_next hrest, hnext]
    simp [Container.opening, Container.closing]
  · exact absurd h (refuse_ne_ok _ _ _)

/-- **A settings text that is accepted is one object or one list.** -/
theorem isElement_of_read {text : String} {s : Settings} (h : read text = .ok s) :
    ∃ value, value.container?.isSome ∧ IsElement value text.toList := by
  obtain ⟨⟨file, cur⟩, hread, hend⟩ := exists_of_bind_eq_ok h
  obtain ⟨value, read, hkind, hvalue, hrest⟩ := isElement_of_readAt hread
  obtain ⟨spaces, hspaces, hcur⟩ := cur.exists_areSpaces
  dsimp only at hend
  split at hend
  · next hempty =>
    refine ⟨value, hkind, ?_⟩
    have htext : text.toList = read ++ spaces := by
      rw [List.isEmpty_iff] at hempty
      rw [hempty, List.append_nil] at hcur
      rw [← hcur, ← hrest]
      rfl
    rw [htext]
    exact hvalue.append_spaces hspaces
  · cases hend

end LintSuite.Settings
