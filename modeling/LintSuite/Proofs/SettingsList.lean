import LintSuite.Proofs.SettingsSoundness
import LintSuite.Settings.File

/-!
# Settings without keys

A settings text need not be an object.  The elements of a list are taken as the settings in their
order (`listOutcome?`), so a list gives settings by their places: it is accepted if it is no longer
than the settings and each element fits the setting at its place (`AcceptedAt`), and settings that
it does not reach are at their defaults.

That is all that is read besides objects.  `ReadsContainers` says for any text what comes out of it,
by the kind of its value.

### Design decisions

**The same outcome, twice.**  Elements of a list and members of an object are read into the same
settings by the same readers.  `listOutcome?` folds over elements as the reading of members does over
members, and the two meet in `readField_answers`, so that a list is one more way of giving values and
not a second format.

**All texts, not only lists.**  `ReadsContainers` is about any text: which kinds of values are
accepted, and that nothing else is.  This needs the converse direction, that what is read is a value of
the grammar, which is why soundness stands in front of it.
-/

namespace LintSuite.Settings

open Json

/-! ### Elements one after the other -/

/-- What the elements of a list make of settings, each of them as the setting at its place. -/
def listOutcome? (file : Settings) : List Field → List Value → Option Settings
  | _, [] => some file
  | [], _ :: _ => none
  | field :: fields, value :: values =>
    (file.assign? value field).bind fun file => listOutcome? file fields values

/-- What `readAt` does behind the elements of a list. -/
def closeList (read : Settings × Cursor) : Except Fault (Settings × Cursor) := do
  .ok (read.1, ← readListEnd read.2)

theorem readListEnd_of_ne {spaces : List Char} (hspaces : AreSpaces spaces) {c : Char}
    (hc : isSpace c = false) (hclose : c ≠ ']') (rest : List Char) (p : Position) :
    ∃ fault, readListEnd ⟨spaces ++ c :: rest, p⟩ = .error fault := by
  rw [readListEnd, skipSpace_before hspaces hc]
  dsimp only
  split
  · next heq => cases heq
  · next heq => exact absurd (List.cons.inj heq).1 hclose
  · split <;> exact ⟨_, rfl⟩
  · exact ⟨_, rfl⟩

/-- An element that no setting is left for is refused. -/
theorem readListEnd_of_inFront {first : Bool} {cur : Cursor} {text : List Char}
    (h : InFront first cur text) (hstart : StartsItem .list text) :
    ∃ fault, readListEnd cur = .error fault := by
  obtain ⟨spaces, c, rest, rfl, hspaces, hc, hclose⟩ := hstart
  cases h with
  | first p => exact readListEnd_of_ne hspaces hc hclose rest p
  | further hbefore p => exact readListEnd_of_ne hbefore rfl (by decide) _ p

/-- White space in front of the value of a setting is skipped, once or twice. -/
theorem readField_skipSpace (file : Settings) (field : Field) (cur : Cursor) :
    readField file field cur.skipSpace = readField file field cur := by
  cases field <;>
    simp only [readField, readFloat, readWhole, readAnyNumber, readStrings, readBool,
      skipSpace_skipSpace]

/-- Behind the last element of a list all settings are left as they are. -/
theorem closeList_end (fields : List Field) (first : Bool) (file : Settings)
    {spaces : List Char} (hspaces : AreSpaces spaces) (rest : List Char) (p : Position) :
    Answers (readElements first file ⟨spaces ++ ']' :: rest, p⟩ fields >>= closeList) (some file)
      rest := by
  cases fields with
  | nil =>
      refine ⟨(p.afterAll spaces).after ']', ?_⟩
      simp only [readElements, bind, Except.bind, closeList, readListEnd,
        skipSpace_before hspaces (c := ']') rfl]
      rfl
  | cons field fields =>
      refine ⟨(p.afterAll spaces).after ']', ?_⟩
      have hmore := readElement?_close first hspaces rest p
      have hclose : (⟨']' :: rest, p.afterAll spaces⟩ : Cursor).rest = ']' :: rest := rfl
      have hothers := readElements_of_close hclose fields first file
      rw [readElements, hmore]
      simp only [bind, Except.bind, Bool.false_eq_true, if_false, hothers]
      rfl

/-- An element is read as the setting at its place, and the list goes on behind it. -/
theorem readElements_first {value : Value} {text : List Char} (h : IsElement value text)
    {first : Bool} {cur : Cursor} {rest : List Char} (hcur : InFront first cur (text ++ rest))
    (hstart : StartsItem .list (text ++ rest)) (hrest : EndsNumber rest) {file : Settings}
    {field : Field} {fields : List Field} {then? : Settings → Option Settings}
    {others : List Char}
    (hnext : ∀ file behind p, AreSpaces behind →
      Answers (readElements false file ⟨behind ++ rest, p⟩ fields >>= closeList) (then? file)
        others) :
    Answers (readElements first file cur (field :: fields) >>= closeList)
      ((file.assign? value field).bind then?) others := by
  obtain ⟨p, hmore⟩ := readElement?_of_inFront hcur hstart
  obtain ⟨behind, hbehind, hread⟩ := readField_element file field h hrest p
  have hunfold : readElements first file cur (field :: fields) >>= closeList =
      readField file field ⟨text ++ rest, p⟩ >>= fun read =>
        readElements false read.1 read.2 fields >>= closeList := by
    rw [readElements, hmore, ← readField_skipSpace]
    simp only [bind, Except.bind, if_true]
    cases readField file field (⟨text ++ rest, p⟩ : Cursor).skipSpace <;> rfl
  rw [hunfold]
  exact hread.bind fun file q _ => hnext file behind q hbehind

/-- **The elements of a list are read as the settings at their places**, up to its end. -/
theorem readElements_answers {values : List Value} {text : List Char}
    (h : AreElements values text) {first : Bool} {cur : Cursor} {rest : List Char}
    (hcur : InFront first cur (text ++ ']' :: rest)) (fields : List Field) (file : Settings) :
    Answers (readElements first file cur fields >>= closeList) (listOutcome? file fields values)
      rest := by
  induction values generalizing text first cur fields file with
  | nil => cases h
  | cons value values ih =>
      have hstart := h.startsItem.append (']' :: rest)
      cases fields with
      | nil =>
          obtain ⟨fault, hfault⟩ := readListEnd_of_inFront hcur hstart
          refine ⟨fault, ?_⟩
          simp only [readElements, bind, Except.bind, closeList, hfault]
      | cons field fields =>
          cases h with
          | last hfirst =>
              refine readElements_first hfirst hcur hstart (Container.list.endsNumber_closing rest)
                fun file behind p hbehind => ?_
              rw [listOutcome?]
              exact closeList_end fields false file hbehind rest p
          | @more _ _ text others hfirst hothers =>
              rw [List.append_assoc, List.cons_append] at hcur hstart
              exact readElements_first hfirst hcur hstart (endsNumber_comma _)
                fun file behind p hbehind => ih hothers (.further hbehind p) fields file

/-! ### What a list says -/

/-- **Elements that are accepted** as settings: one for each place at most, and each of them fits the
setting at its place. -/
structure AcceptedAt (fields : List Field) (values : List Value) : Prop where
  /-- There is a setting for every element. -/
  length_le : values.length ≤ fields.length
  /-- Every element fits its setting. -/
  fits : ∀ entry ∈ fields.zip values, entry.1.Fits entry.2

theorem acceptedAt_cons_iff {field : Field} {fields : List Field} {value : Value}
    {values : List Value} :
    AcceptedAt (field :: fields) (value :: values) ↔
      field.Fits value ∧ AcceptedAt fields values := by
  constructor
  · rintro ⟨hlength, hfits⟩
    rw [List.zip_cons_cons, List.forall_mem_cons] at hfits
    exact ⟨hfits.1, Nat.le_of_succ_le_succ hlength, hfits.2⟩
  · rintro ⟨hfirst, hlength, hfits⟩
    refine ⟨Nat.succ_le_succ hlength, ?_⟩
    rw [List.zip_cons_cons, List.forall_mem_cons]
    exact ⟨hfirst, hfits⟩

/-- **What a list makes of settings is what it says** at their places. -/
theorem listOutcome?_eq_some_iff {fields : List Field} (hfields : fields.Nodup) {file s : Settings}
    {values : List Value} :
    listOutcome? file fields values = some s ↔
      AcceptedAt fields values ∧ s = file.overlay (fields.zip values) := by
  induction values generalizing fields file with
  | nil =>
      have haccepted : AcceptedAt fields [] := ⟨Nat.zero_le _, by simp⟩
      rw [listOutcome?, Option.some.injEq, List.zip_nil_right]
      exact ⟨fun h => ⟨haccepted, h.symm⟩, fun h => h.2.symm⟩
  | cons value values ih =>
      cases fields with
      | nil =>
          refine ⟨fun h => (nomatch h), fun h => ?_⟩
          exact absurd h.1.length_le (Nat.not_succ_le_zero _)
      | cons field fields =>
          obtain ⟨hfield, hfields⟩ := List.nodup_cons.mp hfields
          rw [listOutcome?, acceptedAt_cons_iff, List.zip_cons_cons]
          cases htaken : file.assign? value field with
          | none =>
              have hfits : ¬field.Fits value := by
                rw [← isSome_assign? file value field, htaken]
                decide
              simp [hfits]
          | some taken =>
              have hfits : field.Fits value := by
                rw [← isSome_assign? file value field, htaken]
                rfl
              have hfresh : field ∉ (fields.zip values).map Prod.fst := by
                intro hmem
                obtain ⟨entry, hentry, rfl⟩ := List.mem_map.mp hmem
                exact hfield (List.of_mem_zip hentry).1
              rw [Option.bind_some, ih hfields, overlay_cons htaken hfresh]
              simp [hfits]

/-! ### The text as a whole -/

/-- **A text that is refused**, also as the text of the settings file. -/
def IsRefused (text : String) : Prop :=
  ∃ fault, read text = .error fault ∧ ∀ fs p, fs.exists? p = true →
    readFileText fs p = .ok text → load fs p = (fs, .error (.refused p fault))

/-- **A text that gives settings exactly if it is accepted**, and is refused otherwise. -/
def Gives (text : String) (accepted : Prop) (s : Settings) : Prop :=
  (accepted → read text = .ok s) ∧ (¬accepted → IsRefused text)

theorem isRefused_of_ne_ok {text : String} (h : ∀ s, read text ≠ .ok s) : IsRefused text := by
  cases hread : read text with
  | ok s => exact absurd hread (h s)
  | error fault =>
      refine ⟨fault, hread, fun fs p hexists htext => ?_⟩
      rw [load, if_pos hexists, readFile, htext]
      simp only [hread]

theorem gives_of_iff {text : String} {accepted : Prop} {given : Settings}
    (h : ∀ s, read text = .ok s ↔ accepted ∧ s = given) : Gives text accepted given :=
  ⟨fun haccepted => (h given).mpr ⟨haccepted, rfl⟩,
    fun hrefused => isRefused_of_ne_ok fun s hread => hrefused ((h s).mp hread).1⟩

/-- **A list is read as what its elements make of the defaults.** -/
theorem readAt_list {values : List Value} {text : List Char} (h : IsElement (.list values) text)
    (p : Position) :
    ∃ behind, AreSpaces behind ∧
      Answers (readAt ⟨text, p⟩) (listOutcome? {} Field.all values) behind := by
  cases h with
  | @spaced _ before _ behind hbefore hvalue hbehind =>
      refine ⟨behind, hbehind, ?_⟩
      cases hvalue with
      | @emptyList spaces hspaces =>
          rw [readAt, List.cons_append, List.append_assoc, skipSpace_before hbefore rfl]
          exact closeList_end Field.all true {} hspaces behind _
      | @list _ inner helements =>
          have hfront : InFront true ⟨inner ++ ']' :: behind, (p.afterAll before).after '['⟩
              (inner ++ ']' :: behind) := .first _
          rw [readAt, List.cons_append, List.append_assoc, skipSpace_before hbefore rfl]
          exact readElements_answers helements hfront Field.all {}

/-- Settings are not read from a value without parts. -/
theorem readAt_ne_ok {value : Value} {text : List Char} (h : IsElement value text)
    (hvalue : value.container? = none) (p : Position) (result : Settings × Cursor) :
    readAt ⟨text, p⟩ ≠ .ok result := by
  cases h with
  | @spaced _ before inner behind hbefore hinner hbehind =>
      obtain ⟨c, rest, rfl, hstart⟩ := hinner.start
      have hopening := hstart.ne_opening hvalue
      rw [List.cons_append, readAt, skipSpace_before hbefore hstart.isSpace_eq_false]
      dsimp only
      split
      · intro hread
        cases hread
      · next heq => exact absurd (List.cons.inj heq).1 (hopening .list)
      · next heq => exact absurd (List.cons.inj heq).1 (hopening .object)
      · exact refuse_ne_ok _ _ _

/-- **How a text is read**, by the kind of its value. -/
structure ReadsContainers (text : String) : Prop where
  /-- A text that is accepted is one object or one list. -/
  accepted : ∀ s, read text = .ok s →
    ∃ value, value.container?.isSome ∧ IsElement value text.toList
  /-- A text that is one value without parts is refused. -/
  leaf : ∀ value, IsElement value text.toList → value.container? = none → IsRefused text
  /-- An object gives settings by their keys. -/
  object : ∀ members, IsElement (.object members) text.toList →
    Gives text (Accepted members) (overlay {} (given members))
  /-- A list gives settings by their places. -/
  list : ∀ values, IsElement (.list values) text.toList →
    Gives text (AcceptedAt Field.all values) (overlay {} (Field.all.zip values))

/-- **Settings are read from objects and lists only.**  An object is accepted if its members are, and
each setting is then the value under its key; a list is accepted if it has at most one element for
each setting and they fit, and each setting is then the value at its place.  What is not given is at
its default, and any other text is refused. -/
theorem readsContainers_read (text : String) : ReadsContainers text where
  accepted := fun s hread => isElement_of_read hread
  leaf := by
    intro value hvalue hleaf
    refine isRefused_of_ne_ok fun s hread => ?_
    obtain ⟨result, hresult, -⟩ := exists_of_bind_eq_ok hread
    exact readAt_ne_ok hvalue hleaf _ _ hresult
  object := by
    intro members hmembers
    refine gives_of_iff fun s => ?_
    rw [read_eq_ok_iff_outcome? hmembers, outcome?_eq_some_iff]
    simp
  list := by
    intro values hvalues
    refine gives_of_iff fun s => ?_
    obtain ⟨behind, hbehind, hread⟩ := readAt_list hvalues {}
    rw [read_eq_ok_iff_of_answers hbehind hread, listOutcome?_eq_some_iff (by decide)]

/-- A list gives a setting without a key: its first element is the confidence. -/
theorem read_threeQuarters_inList :
    IsElement (.list [.number threeQuarters]) "[0.75]".toList ∧
      (∀ members, ¬IsElement (.object members) "[0.75]".toList) ∧
      read "[0.75]" = .ok { confidence := 0.75 } := by
  have hlist : IsElement (.list [.number threeQuarters]) "[0.75]".toList :=
    (IsValue.list (.last isValue_threeQuarters.isElement)).isElement
  refine ⟨hlist, fun members hobject => ?_, ?_⟩
  · generalize htext : "[0.75]".toList = text at hobject
    cases hobject with
    | spaced _ hvalue _ =>
        obtain ⟨c, rest, rfl, rfl⟩ := hvalue.start
        have hopen : '\x7b' ∈ "[0.75]".toList := by
          rw [htext]
          simp
        exact absurd hopen (by decide)
  · have hwhole : ¬(threeQuarters.IsWhole ∧ threeQuarters.wholeValue < wordLimit) := by decide
    have hfraction : (Value.number threeQuarters).fraction? = some 0.75 := by
      change threeQuarters.fraction? = _
      rw [Numeral.fraction?, if_neg hwhole]
      change (scaleBy (Decimal.nearest false ⟨75, 0⟩) (-2)).map _ = _
      rw [scaleBy]
      rfl
    obtain ⟨behind, hbehind, hread⟩ := readAt_list hlist {}
    rw [read_eq_ok_iff_of_answers hbehind hread]
    simp [Field.all, listOutcome?, assign?, hfraction]

end LintSuite.Settings
