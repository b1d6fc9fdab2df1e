import LintSuite.Proofs.NumeralAccuracy
import LintSuite.Proofs.SettingsValues

/-!
# What a settings text says

The members of an object are read one after the other into the settings (`outcome?`,
`readMembers_answers`): a member with an unknown key is skipped, and one with a known key must be the
first with it and must have a value that fits.  What comes out does not depend on the order: the object
is accepted exactly if all its members are (`Accepted`), and then each setting is what is given for it
(`overlay`, `outcome?_eq_some_iff`).

`read_of_isObjectText` says so for the text.  The range of the confidence is the range in which a
number can be read as a fraction, which ends a little below the greatest number of the format
(`read_belowGreatest`).

### Main statements

* `readMembers_answers`: members are read as what they make of the settings, one after the other.
* `outcome?_eq_some_iff`: what that comes to, without an order.
* `read_of_isObjectText`: what a text that is one object says.
* `read_belowGreatest`: a number that the format has, and that is refused.

### Design decisions

**An order, and then none.**  The reader goes along the members, and a fault ends it at once.
`outcome?` follows it.  `Accepted` and `overlay` describe the same without an order, by which settings
are given and that none is given twice.  That members may be reordered and unknown ones added or left
out are consequences of the second description.

**Accuracy is part of the statement.**  A confidence is read as a number of the format, which is near
what is written.  `ReadsFraction` says how near and in which range, so that the theorem gives what comes
out and not only that something does.
-/

namespace LintSuite.Settings

open Json

/-! ### Members one after the other -/

/-- What members make of settings, if some settings were read before: none of them may be read
again. -/
def outcome? (seen : List Field) (file : Settings) : Members → Option Settings
  | [] => some file
  | (key, value) :: members =>
    (unescape key).bind fun name =>
      match Field.ofKey? name with
      | none => outcome? seen file members
      | some field =>
        if field ∈ seen then none
        else (file.assign? value field).bind fun file => outcome? (field :: seen) file members

/-- **An object goes on** in front of the quote of a key. -/
theorem readKeyStart?_of_inFront {first : Bool} {cur : Cursor} {spaces text : List Char}
    (hspaces : AreSpaces spaces) (h : InFront first cur (spaces ++ '"' :: text)) :
    ∃ p, readKeyStart? first cur = .ok (true, ⟨text, p⟩) := by
  cases h with
  | first p =>
      refine ⟨(p.afterAll spaces).after '"', ?_⟩
      rw [readKeyStart?, skipSpace_before hspaces rfl]
      rfl
  | @further before _ hbefore p =>
      refine ⟨(((p.afterAll before).after ',').afterAll spaces).after '"', ?_⟩
      rw [readKeyStart?, skipSpace_before hbefore rfl]
      simp only [Char.reduceEq, Bool.false_eq_true, if_false, if_true, Cursor.next_cons,
        skipSpace_before (c := '"') hspaces rfl]

/-- What `readMembers` does behind a key. -/
def readMember (steps : Nat) (seen : List Field) (file : Settings) (read : String × Cursor) :
    Except Fault (Settings × Cursor) :=
  match Field.ofKey? read.1 with
  | none => do
    let cur ← readColon read.2
    let cur ← skipValue cur
    readMembers steps false seen file cur
  | some field =>
    if seen.contains field then .error (duplicateFault field read.2)
    else do
      let cur ← readColon read.2
      let (file, cur) ← readField file field cur
      readMembers steps false (field :: seen) file cur

theorem readMembers_eq {first : Bool} {cur behind : Cursor}
    (hmore : readKeyStart? first cur = .ok (true, behind)) (steps : Nat) (seen : List Field)
    (file : Settings) :
    readMembers (steps + 1) first seen file cur =
      readText behind >>= readMember steps seen file := by
  rw [readMembers, hmore]
  rfl

/-- **A member is read**: its value as a setting or past it, and the object goes on behind it. -/
theorem readMembers_first {key : List StringPart} {value : Value} {text : List Char}
    (h : IsMember (key, value) text) {first : Bool} {cur : Cursor} {rest : List Char}
    (hcur : InFront first cur (text ++ rest)) (hrest : EndsNumber rest) {steps : Nat}
    {seen : List Field} {file : Settings} {then? : List Field → Settings → Option Settings}
    {others : List Char}
    (hnext : ∀ seen file behind p, AreSpaces behind →
      Answers (readMembers steps false seen file ⟨behind ++ rest, p⟩) (then? seen file) others) :
    Answers (readMembers (steps + 1) first seen file cur)
      ((unescape key).bind fun name =>
        match Field.ofKey? name with
        | none => then? seen file
        | some field =>
          if field ∈ seen then none
          else (file.assign? value field).bind fun file => then? (field :: seen) file)
      others := by
  cases h with
  | @colon _ _ before name behind text hbefore hkey hbehind hvalue =>
      simp only [List.append_assoc, List.cons_append] at hcur
      obtain ⟨p, hmore⟩ := readKeyStart?_of_inFront hbefore hcur
      rw [readMembers_eq hmore]
      refine (readText_answers hkey _ p).bind fun name q _ => ?_
      have hcolon := readColon_append hbehind (text ++ rest) q
      cases hfield : Field.ofKey? name with
      | none =>
          obtain ⟨more, hmore, q', hskip⟩ :=
            skipValue_element hvalue hrest ((q.afterAll behind).after ':')
          simp only [readMember, hfield, hcolon, bind, Except.bind, hskip]
          exact hnext seen file more q' hmore
      | some field =>
          by_cases hseen : field ∈ seen
          · simp only [readMember, hfield, List.contains_eq_mem, hseen, decide_true, if_true]
            exact answers_none _ _
          · simp only [readMember, hfield, List.contains_eq_mem, hseen, decide_false,
              Bool.false_eq_true, if_false, hcolon]
            obtain ⟨more, hmore, hread⟩ :=
              readField_element file field hvalue hrest ((q.afterAll behind).after ':')
            exact hread.bind fun file q' _ => hnext (field :: seen) file more q' hmore

/-- The object ends in front of its end. -/
theorem readMembers_end (steps : Nat) (first : Bool) (seen : List Field) (file : Settings)
    {spaces : List Char} (hspaces : AreSpaces spaces) (rest : List Char) (p : Position) :
    Answers (readMembers (steps + 1) first seen file ⟨spaces ++ '\x7d' :: rest, p⟩) (some file)
      rest := by
  refine ⟨(p.afterAll spaces).after '\x7d', ?_⟩
  rw [readMembers, readKeyStart?, skipSpace_before hspaces rfl]
  rfl

/-- **The members of an object are read up to its end**, as what they make of the settings. -/
theorem readMembers_answers {members : Members} {text : List Char} (h : AreMembers members text)
    {steps : Nat} (hsteps : members.length ≤ steps) {first : Bool} {cur : Cursor}
    {rest : List Char} (hcur : InFront first cur (text ++ '\x7d' :: rest)) (seen : List Field)
    (file : Settings) :
    Answers (readMembers (steps + 1) first seen file cur) (outcome? seen file members) rest := by
  -- Each member takes one step, so the bound falls with their number.
  induction members generalizing text steps first cur seen file with
  | nil => cases h
  | cons member members ih =>
      obtain ⟨steps, rfl⟩ := Nat.exists_eq_add_one_of_ne_zero (Nat.ne_zero_of_lt hsteps)
      cases h with
      | last hfirst =>
          exact readMembers_first hfirst hcur (Container.object.endsNumber_closing rest)
            fun seen file behind p hbehind =>
              readMembers_end steps false seen file hbehind rest p
      | @more _ _ text others hfirst hothers =>
          rw [List.append_assoc, List.cons_append] at hcur
          have hnext : ∀ seen file behind p, AreSpaces behind →
              Answers (readMembers (steps + 1) false seen file
                ⟨behind ++ ',' :: (others ++ '\x7d' :: rest), p⟩) (outcome? seen file members)
                rest := fun seen file behind p hbehind =>
            ih hothers (Nat.le_of_succ_le_succ hsteps) (.further hbehind p) seen file
          exact readMembers_first hfirst hcur (endsNumber_comma _) hnext

/-! ### What members say -/

/-- Whether a value fits a setting: it has the type and the range of the setting. -/
def Field.Fits (field : Field) (value : Value) : Prop :=
  match field with
  | .confidence => value.fraction?.isSome
  | .length => (value.natural? UInt64.size).isSome
  | .complexity => (value.natural? UInt32.size).isSome
  | .quiet => value.truth?.isSome
  | .ignore | .prune | .skip => value.texts?.isSome

/-- **The settings that members give**: those with a known key, with their values and in their
order. -/
def given (members : Members) : List (Field × Value) :=
  members.filterMap fun member =>
    (unescape member.1).bind fun name => (Field.ofKey? name).map (·, member.2)

/-- **Members that are accepted.** -/
structure Accepted (members : Members) : Prop where
  /-- Every key means a text. -/
  keys : ∀ member ∈ members, (unescape member.1).isSome
  /-- No setting is given twice. -/
  once : ((given members).map Prod.fst).Nodup
  /-- Every setting is given a value that fits. -/
  fits : ∀ entry ∈ given members, entry.1.Fits entry.2

/-- **Settings as they are given**: each is the value that is given for it, and the one of other
settings if none is. -/
def overlay (file : Settings) (entries : List (Field × Value)) : Settings where
  confidence := ((entries.lookup .confidence).bind Value.fraction?).getD file.confidence
  ignore := ((entries.lookup .ignore).bind Value.texts?).getD file.ignore
  length :=
    (((entries.lookup .length).bind (Value.natural? UInt64.size)).map UInt64.ofNat).getD
      file.length
  complexity :=
    (((entries.lookup .complexity).bind (Value.natural? UInt32.size)).map UInt32.ofNat).getD
      file.complexity
  prune := ((entries.lookup .prune).bind Value.texts?).getD file.prune
  quiet := ((entries.lookup .quiet).bind Value.truth?).getD file.quiet
  skip := ((entries.lookup .skip).bind Value.texts?).getD file.skip

theorem isSome_assign? (file : Settings) (value : Value) (field : Field) :
    (file.assign? value field).isSome ↔ field.Fits value := by
  cases field <;> simp [assign?, Field.Fits]

/-- A setting that is taken first is given by its value, as it is not given again. -/
theorem overlay_cons {file taken : Settings} {value : Value} {field : Field}
    (h : file.assign? value field = some taken) {entries : List (Field × Value)}
    (hfield : field ∉ entries.map Prod.fst) :
    taken.overlay entries = file.overlay ((field, value) :: entries) := by
  have hnone : entries.lookup field = none := by
    rw [List.lookup_eq_none_iff]
    intro entry hentry
    rw [bne_iff_ne]
    rintro rfl
    exact hfield (List.mem_map_of_mem hentry)
  have hself : ((field, value) :: entries).lookup field = some value := List.lookup_cons_self
  have hother : ∀ f, f ≠ field → ((field, value) :: entries).lookup f = entries.lookup f := by
    intro f hf
    rw [List.lookup_cons, beq_eq_false_iff_ne.mpr hf]
  cases field
  all_goals
    obtain ⟨x, hx, rfl⟩ := Option.map_eq_some_iff.mp h
    simp [overlay, hnone, hself, hother, hx]

theorem accepted_iff {members : Members} :
    Accepted members ↔ (∀ member ∈ members, (unescape member.1).isSome) ∧
      ((given members).map Prod.fst).Nodup ∧ ∀ entry ∈ given members, entry.1.Fits entry.2 :=
  ⟨fun h => ⟨h.keys, h.once, h.fits⟩, fun h => ⟨h.1, h.2.1, h.2.2⟩⟩

section Given

variable {key : List StringPart} {value : Value} {members : Members} {name : String}
  {field : Field}

theorem given_cons_of_unknown (hkey : unescape key = some name)
    (hfield : Field.ofKey? name = none) : given ((key, value) :: members) = given members := by
  simp [given, hkey, hfield]

theorem given_cons_of_known (hkey : unescape key = some name)
    (hfield : Field.ofKey? name = some field) :
    given ((key, value) :: members) = (field, value) :: given members := by
  simp [given, hkey, hfield]

/-- A member with an unknown key does not matter. -/
theorem accepted_cons_of_unknown (hkey : unescape key = some name)
    (hfield : Field.ofKey? name = none) :
    Accepted ((key, value) :: members) ↔ Accepted members := by
  rw [accepted_iff, accepted_iff, given_cons_of_unknown hkey hfield]
  simp [hkey]

/-- A member with a known key must fit and be the only one with the key. -/
theorem accepted_cons_of_known (hkey : unescape key = some name)
    (hfield : Field.ofKey? name = some field) :
    Accepted ((key, value) :: members) ↔
      field.Fits value ∧ field ∉ (given members).map Prod.fst ∧ Accepted members := by
  rw [accepted_iff, accepted_iff, given_cons_of_known hkey hfield, List.map_cons,
    List.nodup_cons, List.forall_mem_cons, List.forall_mem_cons, hkey]
  simp only [Option.isSome_some, true_and]
  tauto

end Given

/-- What was seen grows by a setting: none of those to come may be it. -/
theorem forall_notMem_cons_iff {entries : List (Field × Value)} {field : Field}
    {seen : List Field} :
    (∀ entry ∈ entries, entry.1 ∉ field :: seen) ↔
      field ∉ entries.map Prod.fst ∧ ∀ entry ∈ entries, entry.1 ∉ seen := by
  constructor
  · intro h
    refine ⟨fun hmem => ?_, fun entry hentry hseen => h entry hentry (.tail _ hseen)⟩
    obtain ⟨entry, hentry, rfl⟩ := List.mem_map.mp hmem
    exact h entry hentry List.mem_cons_self
  · rintro ⟨hfield, hseen⟩ entry hentry hmem
    rcases List.mem_cons.mp hmem with rfl | hmem
    · exact hfield (List.mem_map_of_mem hentry)
    · exact hseen entry hentry hmem

/-- A setting that is taken counts as given, in front of the others. -/
theorem overlay_taken_iff {seen : List Field} {file taken s : Settings} {members : Members}
    {value : Value} {field : Field} (hseen : field ∉ seen)
    (htaken : file.assign? value field = some taken) :
    (Accepted members ∧ (∀ entry ∈ given members, entry.1 ∉ field :: seen) ∧
        s = taken.overlay (given members)) ↔
      (field.Fits value ∧ field ∉ (given members).map Prod.fst ∧ Accepted members) ∧
        (field ∉ seen ∧ ∀ entry ∈ given members, entry.1 ∉ seen) ∧
        s = file.overlay ((field, value) :: given members) := by
  have hfits : field.Fits value := (isSome_assign? file value field).mp (by rw [htaken]; rfl)
  rw [forall_notMem_cons_iff]
  constructor
  · rintro ⟨haccepted, ⟨honce, hothers⟩, rfl⟩
    exact ⟨⟨hfits, honce, haccepted⟩, ⟨hseen, hothers⟩, overlay_cons htaken honce⟩
  · rintro ⟨⟨-, honce, haccepted⟩, ⟨-, hothers⟩, rfl⟩
    exact ⟨haccepted, ⟨honce, hothers⟩, (overlay_cons htaken honce).symm⟩

/-- **What members make of settings is what they say**, if they are accepted and give nothing that
was seen before. -/
theorem outcome?_eq_some_iff {seen : List Field} {file : Settings} {members : Members}
    {s : Settings} :
    outcome? seen file members = some s ↔
      Accepted members ∧ (∀ entry ∈ given members, entry.1 ∉ seen) ∧
        s = file.overlay (given members) := by
  induction members generalizing seen file with
  | nil =>
      have haccepted : Accepted [] := ⟨by simp, by simp [given], by simp [given]⟩
      rw [outcome?, Option.some.injEq]
      constructor
      · rintro rfl
        exact ⟨haccepted, by simp [given], rfl⟩
      · rintro ⟨-, -, rfl⟩
        rfl
  | cons member members ih =>
      obtain ⟨key, value⟩ := member
      cases hkey : unescape key with
      | none =>
          have hrefused : ¬Accepted ((key, value) :: members) := by
            intro haccepted
            have hsome := haccepted.keys (key, value) List.mem_cons_self
            rw [hkey] at hsome
            cases hsome
          simp [outcome?, hkey, hrefused]
      | some name =>
          cases hfield : Field.ofKey? name with
          | none =>
              rw [accepted_cons_of_unknown hkey hfield, given_cons_of_unknown hkey hfield, ← ih,
                outcome?, hkey]
              simp [hfield]
          | some field =>
              rw [accepted_cons_of_known hkey hfield, given_cons_of_known hkey hfield,
                List.forall_mem_cons, outcome?, hkey]
              simp only [Option.bind_some, hfield]
              by_cases hseen : field ∈ seen
              · simp [hseen]
              cases htaken : file.assign? value field with
              | none =>
                  have hfits : ¬field.Fits value := by
                    rw [← isSome_assign? file value field, htaken]
                    decide
                  simp [hfits]
              | some taken =>
                  rw [if_neg hseen, Option.bind_some, ih, overlay_taken_iff hseen htaken]

/-! ### The text as a whole -/

/-- **An object is read as what its members make of the defaults.** -/
theorem readAt_answers {members : Members} {text : List Char} (h : IsObjectText members text)
    (p : Position) :
    ∃ behind, AreSpaces behind ∧
      Answers (readAt ⟨text, p⟩) (outcome? [] {} members) behind := by
  cases h with
  | @spaced _ before _ behind hbefore hvalue hbehind =>
      refine ⟨behind, hbehind, ?_⟩
      cases hvalue with
      | @emptyObject spaces hspaces =>
          rw [readAt, List.cons_append, List.append_assoc, skipSpace_before hbefore rfl]
          exact readMembers_end _ true [] {} hspaces behind _
      | @object _ inner hmembers =>
          have hsteps : members.length ≤ (inner ++ '\x7d' :: behind).length + 1 := by
            have hlength := hmembers.length_le
            rw [List.length_append]
            omega
          have hfront : InFront true ⟨inner ++ '\x7d' :: behind, (p.afterAll before).after '\x7b'⟩
              (inner ++ '\x7d' :: behind) := .first _
          rw [readAt, List.cons_append, List.append_assoc, skipSpace_before hbefore rfl]
          exact readMembers_answers hmembers hsteps hfront [] {}

/-- What is read at the start of a text is read from the text, if white space follows. -/
theorem read_eq_ok_iff_of_answers {text : String} {answer : Option Settings} {behind : List Char}
    (hbehind : AreSpaces behind) (h : Answers (readAt (.ofText text)) answer behind)
    (s : Settings) : read text = .ok s ↔ answer = some s := by
  have hend : ∀ p, (⟨behind, p⟩ : Cursor).skipSpace.rest = [] := by
    intro p
    have hspace := skipSpace_append hbehind [] p
    rw [List.append_nil] at hspace
    rw [hspace]
    rfl
  rw [read]
  cases answer with
  | none =>
      obtain ⟨fault, hfault⟩ := h
      rw [hfault]
      exact ⟨fun hok => (nomatch hok), fun hsome => (nomatch hsome)⟩
  | some file =>
      obtain ⟨p, hok⟩ := h
      rw [hok]
      simp [bind, Except.bind, hend]

/-- A text that is one object is read to its end. -/
theorem read_eq_ok_iff_outcome? {members : Members} {text : String}
    (h : IsObjectText members text.toList) (s : Settings) :
    read text = .ok s ↔ outcome? [] {} members = some s := by
  obtain ⟨behind, hbehind, hread⟩ := readAt_answers h {}
  exact read_eq_ok_iff_of_answers hbehind hread s

/-- With each setting given once, what is found for it is what is given. -/
theorem lookup_eq_some_iff {entries : List (Field × Value)}
    (honce : (entries.map Prod.fst).Nodup) {field : Field} {value : Value} :
    entries.lookup field = some value ↔ (field, value) ∈ entries := by
  induction entries with
  | nil => simp
  | cons entry entries ih =>
      obtain ⟨first, given⟩ := entry
      obtain ⟨hfirst, hothers⟩ := List.nodup_cons.mp honce
      by_cases hfield : field = first
      · subst hfield
        have hfresh : (field, value) ∉ entries := fun hmem =>
          hfirst (List.mem_map.mpr ⟨_, hmem, rfl⟩)
        simp [hfresh, eq_comm]
      · rw [List.lookup_cons, beq_eq_false_iff_ne.mpr hfield, ih hothers]
        simp [hfield]

/-- **The order in which settings are given does not matter.** -/
theorem overlay_eq_of_perm (file : Settings) {entries others : List (Field × Value)}
    (h : entries.Perm others) (honce : (entries.map Prod.fst).Nodup) :
    file.overlay entries = file.overlay others := by
  have hlookup : ∀ field, entries.lookup field = others.lookup field := by
    intro field
    have honce' : (others.map Prod.fst).Nodup := (h.map Prod.fst).nodup_iff.mp honce
    refine Option.ext fun value => ?_
    rw [lookup_eq_some_iff honce, lookup_eq_some_iff honce', h.mem_iff]
  simp only [overlay, hlookup]

theorem Accepted.of_perm {members others : Members} (h : Accepted members)
    (hperm : (given members).Perm (given others))
    (hkeys : ∀ member ∈ others, (unescape member.1).isSome) : Accepted others where
  keys := hkeys
  once := (hperm.map Prod.fst).nodup_iff.mp h.once
  fits := fun entry hentry => h.fits entry (hperm.mem_iff.mpr hentry)

/-- **What a settings text says.**  A text that is one object is read exactly if its members are
accepted; each setting is then the value that is given for it, or the default.  Any other text whose
keys mean texts and that gives the same settings is read as the same, in whatever order it gives
them, however white space stands in it and whatever its other members are.  A number that is given
for the confidence is read as a fraction near it, up to the end of the range of fractions. -/
theorem read_of_isObjectText {members : Members} {text : String}
    (h : IsObjectText members text.toList) :
    (∀ s, read text = .ok s ↔ Accepted members ∧ s = overlay {} (given members)) ∧
      (∀ others other, IsObjectText others other.toList →
        (∀ member ∈ members ++ others, (unescape member.1).isSome) →
        (given members).Perm (given others) → ∀ s, read other = .ok s ↔ read text = .ok s) ∧
      ∀ n, (Field.confidence, Value.number n) ∈ given members →
        n.digits.length ≤ 2000000000 → n.ReadsFraction := by
  have hread : ∀ {members : Members} {text : String}, IsObjectText members text.toList →
      ∀ s, read text = .ok s ↔ Accepted members ∧ s = overlay {} (given members) := by
    intro members text h s
    rw [read_eq_ok_iff_outcome? h, outcome?_eq_some_iff]
    simp
  refine ⟨hread h, fun others other hother hkeys hperm s => ?_,
    fun n _ hlength => Numeral.readsFraction hlength⟩
  rw [hread h, hread hother]
  constructor
  · rintro ⟨haccepted, rfl⟩
    exact ⟨haccepted.of_perm hperm.symm fun m hm => hkeys m (List.mem_append_left _ hm),
      overlay_eq_of_perm {} hperm.symm haccepted.once⟩
  · rintro ⟨haccepted, rfl⟩
    exact ⟨haccepted.of_perm hperm fun m hm => hkeys m (List.mem_append_right _ hm),
      overlay_eq_of_perm {} hperm haccepted.once⟩

/-- A number with digits on both sides of the point. -/
def threeQuarters : Numeral where
  negative := false
  whole := ['0']
  places := some ['7', '5']
  exponent := none
  whole_digits := by decide
  whole_zero := by decide
  places_digits := by decide
  exponent_digits := by decide

theorem isValue_threeQuarters : IsValue (.number threeQuarters) ['0', '.', '7', '5'] :=
  .number ⟨[], .absent, rfl⟩

/-- The members of an object with one known key. -/
def plainMembers : Members := [("confidence".toList.map .char, .number threeQuarters)]

/-- The same with an escape in the key, behind a member whose key is not known. -/
def escapedMembers : Members :=
  [([.char 'x'], .list [.null, .object []]),
    (.unit 0x63 :: "onfidence".toList.map .char, .number threeQuarters)]

theorem isObjectText_plainMembers :
    IsObjectText plainMembers "\x7b\"confidence\":0.75\x7d".toList := by
  have hkey : AreParts ("confidence".toList.map .char) "confidence".toList :=
    areParts_map_char (by simp)
  have hvalue : IsElement (.number threeQuarters) ([] ++ (['0', '.', '7', '5'] ++ [])) :=
    .spaced areSpaces_nil isValue_threeQuarters areSpaces_nil
  have hobject := IsValue.object
    (.last (.colon areSpaces_nil hkey areSpaces_nil hvalue))
  exact .spaced areSpaces_nil hobject areSpaces_nil

theorem isObjectText_escapedMembers :
    IsObjectText escapedMembers
      " \x7b\"x\": [null , \x7b\x7d], \"\\u0063onfidence\" :0.75 \x7d".toList := by
  have hother : AreParts [.char 'x'] ("x".toList ++ []) :=
    .cons (.plain (by decide) (by decide) (by decide)) .nil
  have hkey : AreParts (.unit 0x63 :: "onfidence".toList.map .char)
      ("\\u0063".toList ++ "onfidence".toList) :=
    .cons (@IsPart.unit '0' '0' '6' '3' 0 0 6 3 (by decide) (by decide) (by decide) (by decide))
      (areParts_map_char (by simp))
  have hnull : IsElement .null ([] ++ (['n', 'u', 'l', 'l'] ++ [' '])) :=
    .spaced areSpaces_nil .null areSpaces_blank
  have hempty : IsElement (.object []) ([' '] ++ (['\x7b', '\x7d'] ++ [])) :=
    .spaced areSpaces_blank (.emptyObject areSpaces_nil) areSpaces_nil
  have hlist := IsElement.spaced areSpaces_blank (.list (.more hnull (.last hempty))) areSpaces_nil
  have hvalue : IsElement (.number threeQuarters) ([] ++ (['0', '.', '7', '5'] ++ [' '])) :=
    .spaced areSpaces_nil isValue_threeQuarters areSpaces_blank
  have hobject := IsValue.object
    (.more (.colon areSpaces_nil hother areSpaces_nil hlist)
      (.last (.colon areSpaces_blank hkey areSpaces_blank hvalue)))
  exact .spaced areSpaces_blank hobject areSpaces_nil

theorem magnitude_threeQuarters : threeQuarters.magnitude = 3 / 4 := by
  have hvalue : Nat.ofDigitChars 10 threeQuarters.digits 0 = 75 := by decide
  have hpower : (10 : ℚ) ^ (-((2 : Nat) : Int)) = 1 / 100 := by norm_num
  rw [Numeral.magnitude, Numeral.significand, hvalue]
  change ((75 : Nat) : ℚ) * 10 ^ (-((2 : Nat) : Int)) * 10 ^ (0 : Int) = _
  rw [hpower]
  norm_num

theorem magnitude_threeQuarters_bounds :
    (10 : ℚ) ^ (-280 : Int) ≤ threeQuarters.magnitude ∧
      threeQuarters.magnitude ≤ (179769313486231 * Decimal.tenTo 294 : Nat) := by
  have hle : (10 : ℚ) ^ (-280 : Int) ≤ 10 ^ (-1 : Int) :=
    zpow_le_zpow_right₀ (by norm_num) (by decide)
  have hpos : 1 ≤ 179769313486231 * Decimal.tenTo 294 :=
    Nat.mul_pos (by decide) (Decimal.tenTo_pos _)
  have hone : (1 : ℚ) ≤ (179769313486231 * Decimal.tenTo 294 : Nat) := by exact_mod_cast hpos
  rw [magnitude_threeQuarters]
  exact ⟨hle.trans (by norm_num), by linarith⟩

theorem read_of_isObjectText_escapedMembers :
    IsObjectText escapedMembers
        " \x7b\"x\": [null , \x7b\x7d], \"\\u0063onfidence\" :0.75 \x7d".toList ∧
      ∃ x, read " \x7b\"x\": [null , \x7b\x7d], \"\\u0063onfidence\" :0.75 \x7d" =
          .ok { confidence := x } ∧
        read "\x7b\"confidence\":0.75\x7d" = .ok { confidence := x } ∧
        Decimal.IsNear (1 / 2 ^ 49) x (3 / 4) := by
  have hgiven : given escapedMembers = [(.confidence, .number threeQuarters)] := rfl
  have hplain : given plainMembers = [(.confidence, .number threeQuarters)] := rfl
  have hkeys : ∀ member ∈ escapedMembers ++ plainMembers, (unescape member.1).isSome :=
    List.all_eq_true.mp rfl
  obtain ⟨hread, hother, hnumber⟩ := read_of_isObjectText isObjectText_escapedMembers
  have hfraction : threeQuarters.ReadsFraction := by
    refine hnumber threeQuarters ?_ (by decide)
    rw [hgiven]
    exact List.mem_singleton_self _
  obtain ⟨habove, hwithin⟩ := magnitude_threeQuarters_bounds
  obtain ⟨x, hx⟩ := Option.isSome_iff_exists.mp (hfraction.within hwithin)
  obtain ⟨y, hsign, hnear⟩ := hfraction.near x hx habove
  obtain rfl : x = y := hsign
  rw [magnitude_threeQuarters] at hnear
  have haccepted : Accepted escapedMembers := by
    refine ⟨fun m hm => hkeys m (List.mem_append_left _ hm), by rw [hgiven]; decide, ?_⟩
    rw [hgiven]
    intro entry hentry
    obtain rfl := List.mem_singleton.mp hentry
    exact Option.isSome_iff_exists.mpr ⟨_, hx⟩
  have hoverlay : overlay {} (given escapedMembers) = { confidence := x } := by
    have hvalue : (some (Value.number threeQuarters)).bind Value.fraction? = some x := hx
    have hfirst : overlay {} [(.confidence, .number threeQuarters)] =
        { confidence := ((some (Value.number threeQuarters)).bind Value.fraction?).getD 0.8 } := rfl
    rw [hgiven, hfirst, hvalue]
    rfl
  have hescaped := (hread { confidence := x }).mpr ⟨haccepted, hoverlay.symm⟩
  have hsame := hother plainMembers _ isObjectText_plainMembers hkeys (by rw [hgiven, hplain])
  exact ⟨isObjectText_escapedMembers, x, hescaped, (hsame _).mpr hescaped, hnear⟩

/-! ### The end of the range -/

/-- A number within the range of the format whose leading digits do not lead there. -/
def belowGreatest : Numeral where
  negative := false
  whole := ['1']
  places := some "797693134862315708".toList
  exponent := some (false, ['3', '0', '8'])
  whole_digits := by decide
  whole_zero := by decide
  places_digits := by decide
  exponent_digits := by decide

theorem fraction?_belowGreatest : belowGreatest.fraction? = none := by
  have hleading : belowGreatest.leading = (1797693134862315708, -18) := rfl
  have hzero : (Decimal.nearest false ⟨1797693134862315708, 0⟩ == 0.0) = false := by
    decide +kernel
  have hinf : (Decimal.nearest false ⟨1797693134862315708, 0⟩ *
      power (290 : Int).toNat).isInf = true := by decide +kernel
  have hscaled : scaleBy (Decimal.nearest false ⟨1797693134862315708, 0⟩) 290 = none := by
    rw [← Option.not_isSome_iff_eq_none, isSome_scaleBy_iff hzero, hinf]
    decide
  have hwhole : ¬(belowGreatest.IsWhole ∧ belowGreatest.wholeValue < wordLimit) := by decide
  rw [Numeral.fraction?, if_neg hwhole, hleading]
  change (scaleBy (Decimal.nearest false ⟨1797693134862315708, 0⟩) 290).map _ = none
  rw [hscaled]
  rfl

/-- The greatest number of the format is `(2 ^ 53 - 1) * 2 ^ 971`. -/
theorem magnitude_belowGreatest_le :
    belowGreatest.magnitude ≤ ((2 ^ 53 - 1) * Decimal.twoTo 971 : Nat) := by
  have hvalue : Nat.ofDigitChars 10 belowGreatest.digits 0 = 1797693134862315708 := by decide
  have hle : 1797693134862315708 * Decimal.tenTo 290 ≤ (2 ^ 53 - 1) * Decimal.twoTo 971 := by
    decide +kernel
  have hpower : (10 : ℚ) ^ (-((18 : Nat) : Int)) * 10 ^ ((308 : Nat) : Int) =
      10 ^ ((290 : Nat) : Int) := (zpow_add₀ (by norm_num) _ _).symm
  rw [Numeral.magnitude, Numeral.significand, hvalue]
  change ((1797693134862315708 : Nat) : ℚ) * 10 ^ (-((18 : Nat) : Int)) *
    10 ^ ((308 : Nat) : Int) ≤ _
  rw [mul_assoc, hpower, ← cast_tenTo]
  exact_mod_cast hle

/-- A number within the range of the format may be refused. -/
theorem read_belowGreatest :
    IsObjectText [("confidence".toList.map .char, .number belowGreatest)]
        "\x7b\"confidence\": 1.797693134862315708e308\x7d".toList ∧
      belowGreatest.magnitude ≤ ((2 ^ 53 - 1) * Decimal.twoTo 971 : Nat) ∧
      ∀ s, read "\x7b\"confidence\": 1.797693134862315708e308\x7d" ≠ .ok s := by
  have hkey : AreParts ("confidence".toList.map .char) "confidence".toList :=
    areParts_map_char (by simp)
  have hnumeral : IsValue (.number belowGreatest) "1.797693134862315708e308".toList :=
    .number ⟨['e', '3', '0', '8'], .bare (.inl rfl), rfl⟩
  have hobject := IsValue.object (.last (.colon areSpaces_nil hkey areSpaces_nil
    (.spaced areSpaces_blank hnumeral areSpaces_nil)))
  have htext : IsObjectText [("confidence".toList.map .char, .number belowGreatest)]
      "\x7b\"confidence\": 1.797693134862315708e308\x7d".toList :=
    .spaced areSpaces_nil hobject areSpaces_nil
  refine ⟨htext, magnitude_belowGreatest_le, fun s hread => ?_⟩
  rw [read_eq_ok_iff_outcome? htext, outcome?_eq_some_iff] at hread
  have hfits : Field.Fits .confidence (.number belowGreatest) :=
    hread.1.fits _ List.mem_cons_self
  have hsome : belowGreatest.fraction?.isSome = true := hfits
  rw [fraction?_belowGreatest] at hsome
  cases hsome

end LintSuite.Settings
