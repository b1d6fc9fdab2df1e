import LintSuite.CommandLine.Action
import LintSuite.CommandLine.Options
import LintSuite.Proofs.Outcomes
import Mathlib

/-!
# What a command line says

The options are read by a machine that goes from argument to argument and holds back what it cannot
settle yet.  What a command line says can be told without it: arguments spell a list of *uses*, each
an option with its value, a switch, or an action word (`Spelled`), and the options that are read say
what the uses say, in the order in which they stand (`Says`).  Arguments have at most one reading
(`Spelled.unique`).

`exists_spelled_of_parse` ties the two together.  One step of the machine adds to the uses what one
argument spells (`Reached.readArgument`), and a whole command line follows by induction on its
arguments (`Reached.readFrom`).  The step keeps account of what is held back: it is spelled, but not
said yet (`Reached`).

The words among the uses are given their meaning one by one, so they are in order exactly if each of
them has one (`ActionWord.ofWords_eq_ok_iff`).

### Main statements

* `Spelled.unique`: arguments have one reading at most.
* `exists_spelled_of_parse`: a command line that is read spells something, and the options say it.
* `ofWords_eq_ok_iff`, `ofWords_eq_error_iff`: words are in order exactly if each has a meaning, and
  else the first that has none is named.

### Design decisions

**Uses between texts and options.**  The machine goes from texts to options in one pass.  A list of
uses is put between the two, so that two questions come apart which the machine answers at once: how
arguments are cut into options, values and words (`Spelled`, a grammar without a state), and what comes
of an option that is given twice (`Once`, a property of a list of values).

**One state for what is held back.**  An option that still awaits its value has been spelled but says
nothing yet.  `Reached` keeps it apart, and settling it is a lemma of its own (`Reached.settle`).

### What is load-bearing

`Reached.readArgument`, the step of the machine.  It is put together from the kinds of arguments, and
each of these from what happens at one option (`Reached.beginSwitch`, `Reached.beginValue_some`,
`Reached.beginValue_none`).
-/

namespace LintSuite.CommandLine

/-! ### Uses -/

/-- **A use**: one thing that a command line says. -/
inductive Use where
  /-- An option with its value. -/
  | value (o : Opt) (text : String)
  /-- A switch. -/
  | switch (o : Opt)
  /-- An action word. -/
  | word (text : String)
  deriving DecidableEq, Repr

/-- The value that a use gives to an option, if it gives it one. -/
def Use.valueOf? (o : Opt) : Use → Option String
  | .value given text => if given = o then some text else none
  | _ => none

/-- The action word that a use is, if it is one. -/
def Use.word? : Use → Option String
  | .word text => some text
  | _ => none

/-- The values that some uses give to an option, in order. -/
def valuesOf (o : Opt) (uses : List Use) : List String :=
  uses.filterMap (Use.valueOf? o)

/-- The action words among some uses, in order. -/
def wordsOf (uses : List Use) : List String :=
  uses.filterMap Use.word?

@[simp] theorem valuesOf_append (o : Opt) (uses more : List Use) :
    valuesOf o (uses ++ more) = valuesOf o uses ++ valuesOf o more :=
  List.filterMap_append

@[simp] theorem wordsOf_append (uses more : List Use) :
    wordsOf (uses ++ more) = wordsOf uses ++ wordsOf more :=
  List.filterMap_append

@[simp] theorem valuesOf_value (o given : Opt) (text : String) :
    valuesOf o [.value given text] = if given = o then [text] else [] := by
  by_cases h : given = o <;> simp [valuesOf, Use.valueOf?, h]

@[simp] theorem valuesOf_switch (o given : Opt) : valuesOf o [.switch given] = [] := rfl

@[simp] theorem valuesOf_word (o : Opt) (text : String) : valuesOf o [.word text] = [] := rfl

@[simp] theorem wordsOf_value (o : Opt) (text : String) : wordsOf [.value o text] = [] := rfl

@[simp] theorem wordsOf_switch (o : Opt) : wordsOf [.switch o] = [] := rfl

@[simp] theorem wordsOf_word (text : String) : wordsOf [.word text] = [text] := rfl

/-! ### How uses are spelled -/

/-- Whether an argument looks like an option: it is a dash with something behind it. -/
def LooksLikeOption (argument : String) : Prop :=
  ∃ c rest, argument.toList = '-' :: c :: rest

/-- **Letters behind one dash**: switches, and at the end perhaps an option that takes a value, which
stands behind its letter, behind an equals sign, or is still to come. -/
inductive Letters : List Char → List Use → Option Opt → Prop
  /-- No more letters. -/
  | done : Letters [] [] none
  /-- A switch. -/
  | switch {c : Char} {o : Opt} {rest : List Char} {uses : List Use} {awaited : Option Opt}
      (ho : Opt.ofLetter? c = some o) (hvalue : o.takesValue = false)
      (h : Letters rest uses awaited) : Letters (c :: rest) (.switch o :: uses) awaited
  /-- An option with its value behind it. -/
  | attached {c : Char} {o : Opt} {text : List Char} (ho : Opt.ofLetter? c = some o)
      (hvalue : o.takesValue = true) (hne : text ≠ []) (hfirst : text.head? ≠ some '=') :
      Letters (c :: text) [.value o (String.ofList text)] none
  /-- An option with its value behind an equals sign. -/
  | equals {c : Char} {o : Opt} {text : List Char} (ho : Opt.ofLetter? c = some o)
      (hvalue : o.takesValue = true) : Letters (c :: '=' :: text) [.value o (String.ofList text)] none
  /-- An option whose value is still to come. -/
  | awaiting {c : Char} {o : Opt} (ho : Opt.ofLetter? c = some o) (hvalue : o.takesValue = true) :
      Letters [c] [] (some o)

/-- **A long name behind two dashes**: that of a switch, or of an option that takes a value, which
stands behind an equals sign or is still to come. -/
inductive Long : List Char → List Use → Option Opt → Prop
  /-- A switch. -/
  | switch {name : String} {o : Opt} (ho : Opt.ofLong? name = some o)
      (hvalue : o.takesValue = false) : Long name.toList [.switch o] none
  /-- An option with its value. -/
  | equals {name text : String} {o : Opt} (ho : Opt.ofLong? name = some o)
      (hvalue : o.takesValue = true) : Long (name.toList ++ '=' :: text.toList) [.value o text] none
  /-- An option whose value is still to come. -/
  | awaiting {name : String} {o : Opt} (ho : Opt.ofLong? name = some o)
      (hvalue : o.takesValue = true) : Long name.toList [] (some o)

/-- **One argument**, with the option that awaits its value before it and behind it, if there is
one. -/
inductive Argument : Option Opt → String → List Use → Option Opt → Prop
  /-- The value that is awaited. -/
  | value {o : Opt} {text : String} (hplain : ¬ LooksLikeOption text) :
      Argument (some o) text [.value o text] none
  /-- A word. -/
  | word {text : String} (hplain : ¬ LooksLikeOption text) : Argument none text [.word text] none
  /-- A long name. -/
  | long {body : List Char} {uses : List Use} {awaited : Option Opt}
      (h : Long body uses awaited) : Argument none (String.ofList ('-' :: '-' :: body)) uses awaited
  /-- Letters. -/
  | letters {cs : List Char} {uses : List Use} {awaited : Option Opt} (hne : cs ≠ [])
      (h : Letters cs uses awaited) : Argument none (String.ofList ('-' :: cs)) uses awaited

/-- **How arguments spell uses.**  The option in front, if there is one, still awaits its value. -/
inductive Spelled : Option Opt → List String → List Use → Prop
  /-- No more arguments. -/
  | done : Spelled none [] []
  /-- Two dashes: all that follows are words. -/
  | separator (texts : List String) : Spelled none ("--" :: texts) (texts.map .word)
  /-- One argument and others behind it. -/
  | argument {before awaited : Option Opt} {text : String} {rest : List String}
      {uses more : List Use} (h : Argument before text uses awaited)
      (hrest : Spelled awaited rest more) : Spelled before (text :: rest) (uses ++ more)

/-! ### One reading -/

/-- No long name has an equals sign in it, and none is empty. -/
theorem long_of_ofLong? {name : String} {o : Opt} (h : Opt.ofLong? name = some o) :
    '=' ∉ name.toList ∧ name.toList ≠ [] := by
  have hall : ∀ o ∈ Opt.all, '=' ∉ o.long.toList ∧ o.long.toList ≠ [] := by decide
  have hname : o.long = name := by simpa using List.find?_some h
  exact hname ▸ hall o (List.mem_of_find?_eq_some h)

/-- The first letter is that of an option. -/
theorem Letters.exists_ofLetter? {c : Char} {cs : List Char} {uses : List Use}
    {awaited : Option Opt} (h : Letters (c :: cs) uses awaited) :
    ∃ o, Opt.ofLetter? c = some o := by
  cases h with
  | switch ho => exact ⟨_, ho⟩
  | attached ho => exact ⟨_, ho⟩
  | equals ho => exact ⟨_, ho⟩
  | awaiting ho => exact ⟨_, ho⟩

/-- No letter is a dash. -/
theorem Letters.head?_ne_dash {cs : List Char} {uses : List Use} {awaited : Option Opt}
    (h : Letters cs uses awaited) : cs.head? ≠ some '-' := by
  intro hhead
  obtain ⟨cs, rfl⟩ := List.head?_eq_some_iff.mp hhead
  obtain ⟨o, ho⟩ := h.exists_ofLetter?
  have hdash : Opt.ofLetter? '-' = none := by decide
  rw [hdash] at ho
  cases ho

/-- **Letters have one reading.** -/
theorem Letters.unique {cs : List Char} {uses uses' : List Use} {awaited awaited' : Option Opt}
    (h : Letters cs uses awaited) (h' : Letters cs uses' awaited') :
    uses = uses' ∧ awaited = awaited' := by
  induction h generalizing uses' awaited' with
  | done =>
      cases h'
      exact ⟨rfl, rfl⟩
  | switch ho hvalue h ih =>
      cases h' with
      | switch ho' _ h' =>
          obtain rfl := Option.some.inj (ho.symm.trans ho')
          obtain ⟨rfl, rfl⟩ := ih h'
          exact ⟨rfl, rfl⟩
      | attached ho' hvalue' => simp_all
      | equals ho' hvalue' => simp_all
      | awaiting ho' hvalue' => simp_all
  | attached ho hvalue hne hfirst =>
      cases h' with
      | switch ho' hvalue' => simp_all
      | attached ho' =>
          obtain rfl := Option.some.inj (ho.symm.trans ho')
          exact ⟨rfl, rfl⟩
      | equals => simp at hfirst
      | awaiting => simp at hne
  | equals ho hvalue =>
      cases h' with
      | switch ho' hvalue' => simp_all
      | attached _ _ _ hfirst => simp at hfirst
      | equals ho' =>
          obtain rfl := Option.some.inj (ho.symm.trans ho')
          exact ⟨rfl, rfl⟩
  | awaiting ho hvalue =>
      cases h' with
      | switch ho' hvalue' => simp_all
      | attached _ _ hne => simp at hne
      | awaiting ho' =>
          obtain rfl := Option.some.inj (ho.symm.trans ho')
          exact ⟨rfl, rfl⟩

theorem splitLong_of_notMem {name : String} (h : '=' ∉ name.toList) :
    splitLong name.toList = (name, none) := by
  have hdrop : name.toList.dropWhile (· != '=') = [] := by
    rw [List.dropWhile_eq_nil_iff]
    intro c hc
    rw [bne_iff_ne]
    rintro rfl
    exact h hc
  rw [splitLong, hdrop, String.ofList_toList]

theorem splitLong_append {name : String} (h : '=' ∉ name.toList) (text : String) :
    splitLong (name.toList ++ '=' :: text.toList) = (name, some text) := by
  have hname : ∀ c ∈ name.toList, (c != '=') = true := by
    intro c hc
    rw [bne_iff_ne]
    rintro rfl
    exact h hc
  have hdrop : (name.toList ++ '=' :: text.toList).dropWhile (· != '=') = '=' :: text.toList := by
    rw [List.dropWhile_append_of_pos hname]
    rfl
  have htake : (name.toList ++ '=' :: text.toList).takeWhile (· != '=') = name.toList := by
    rw [List.takeWhile_append_of_pos hname]
    simp
  rw [splitLong, hdrop, htake]
  simp

/-- What a long name says is decided by where it is cut. -/
theorem Long.exists_splitLong {body : List Char} {uses : List Use} {awaited : Option Opt}
    (h : Long body uses awaited) :
    ∃ name o attached, splitLong body = (name, attached) ∧ Opt.ofLong? name = some o ∧
      (uses, awaited) =
        match attached with
        | some text => ([.value o text], none)
        | none => if o.takesValue then ([], some o) else ([.switch o], none) := by
  cases h with
  | @switch name o ho hvalue =>
      refine ⟨name, o, none, splitLong_of_notMem (long_of_ofLong? ho).1, ho, ?_⟩
      simp [hvalue]
  | @equals name text o ho hvalue =>
      exact ⟨name, o, some text, splitLong_append (long_of_ofLong? ho).1 text, ho, rfl⟩
  | @awaiting name o ho hvalue =>
      refine ⟨name, o, none, splitLong_of_notMem (long_of_ofLong? ho).1, ho, ?_⟩
      simp [hvalue]

/-- **A long name has one reading.** -/
theorem Long.unique {body : List Char} {uses uses' : List Use} {awaited awaited' : Option Opt}
    (h : Long body uses awaited) (h' : Long body uses' awaited') :
    uses = uses' ∧ awaited = awaited' := by
  obtain ⟨name, o, attached, hsplit, ho, hgiven⟩ := h.exists_splitLong
  obtain ⟨name', o', attached', hsplit', ho', hgiven'⟩ := h'.exists_splitLong
  obtain ⟨rfl, rfl⟩ := Prod.mk.inj (hsplit.symm.trans hsplit')
  obtain rfl := Option.some.inj (ho.symm.trans ho')
  exact Prod.mk.inj (hgiven.trans hgiven'.symm)

/-- **An argument has one reading.** -/
theorem Argument.unique {before awaited awaited' : Option Opt} {text : String}
    {uses uses' : List Use} (h : Argument before text uses awaited)
    (h' : Argument before text uses' awaited') : uses = uses' ∧ awaited = awaited' := by
  cases h with
  | value =>
      cases h' with
      | value => exact ⟨rfl, rfl⟩
  | word hplain =>
      cases h' with
      | word => exact ⟨rfl, rfl⟩
      | long => exact absurd ⟨_, _, String.toList_ofList⟩ hplain
      | letters hne =>
          obtain ⟨c, cs, rfl⟩ := List.exists_cons_of_ne_nil hne
          exact absurd ⟨_, _, String.toList_ofList⟩ hplain
  | @long body _ _ h =>
      generalize htext : String.ofList ('-' :: '-' :: body) = text at h'
      cases h' with
      | word hplain => exact absurd ⟨_, _, htext ▸ String.toList_ofList⟩ hplain
      | long h' =>
          obtain rfl : body = _ := by simpa using String.ofList_injective htext
          exact h.unique h'
      | letters hne h' =>
          obtain rfl : '-' :: body = _ := by simpa using String.ofList_injective htext
          exact absurd rfl h'.head?_ne_dash
  | @letters cs _ _ hne h =>
      generalize htext : String.ofList ('-' :: cs) = text at h'
      cases h' with
      | word hplain =>
          obtain ⟨c, cs, rfl⟩ := List.exists_cons_of_ne_nil hne
          exact absurd ⟨_, _, htext ▸ String.toList_ofList⟩ hplain
      | @long body _ _ h' =>
          obtain rfl : cs = '-' :: body := by simpa using String.ofList_injective htext
          exact absurd rfl h.head?_ne_dash
      | letters _ h' =>
          obtain rfl : cs = _ := by simpa using String.ofList_injective htext
          exact h.unique h'

/-- Two dashes alone are no argument of their own. -/
theorem Argument.ne_separator {before awaited : Option Opt} {text : String} {uses : List Use}
    (h : Argument before text uses awaited) : text ≠ "--" := by
  have hoption : LooksLikeOption "--" := ⟨'-', [], rfl⟩
  cases h with
  | value hplain =>
      rintro rfl
      exact hplain hoption
  | word hplain =>
      rintro rfl
      exact hplain hoption
  | @long body _ _ h =>
      intro htext
      have hbody : body = [] := by simpa using congrArg String.toList htext
      subst hbody
      obtain ⟨name, o, attached, hsplit, ho, -⟩ := h.exists_splitLong
      obtain ⟨rfl, -⟩ := Prod.mk.inj hsplit
      exact (long_of_ofLong? ho).2 rfl
  | letters _ h =>
      intro htext
      refine h.head?_ne_dash ?_
      simpa using congrArg (List.head? ∘ List.tail ∘ String.toList) htext

/-- **Arguments have one reading.** -/
theorem Spelled.unique {before : Option Opt} {arguments : List String} {uses uses' : List Use}
    (h : Spelled before arguments uses) (h' : Spelled before arguments uses') : uses = uses' := by
  induction h generalizing uses' with
  | done =>
      cases h'
      rfl
  | separator texts =>
      cases h' with
      | separator => rfl
      | argument h' => exact absurd rfl h'.ne_separator
  | argument h hrest ih =>
      cases h' with
      | separator => exact absurd rfl h.ne_separator
      | argument h' hrest' =>
          obtain ⟨rfl, rfl⟩ := h.unique h'
          rw [ih hrest']

/-! ### What options say -/

/-- **A value that may be given once**, and what it reads as. -/
inductive Once {α : Type} (read : String → Except String α) : List String → Option α → Prop
  /-- It is not given. -/
  | never : Once read [] none
  /-- It is given. -/
  | given {text : String} {a : α} (h : read text = .ok a) : Once read [text] (some a)

/-- **Options say what some uses say.** -/
structure Says (uses : List Use) (given : Options) : Prop where
  /-- The least confidence of style findings. -/
  confidence : Once readFraction (valuesOf .confidence uses) given.confidence
  /-- The greatest length of a line. -/
  length : Once readWord (valuesOf .length uses) given.length
  /-- The greatest complexity of a function. -/
  complexity : Once readHalfWord (valuesOf .complexity uses) given.complexity
  /-- The seconds for a tool. -/
  timeout : Once readWord (valuesOf .timeout uses) given.timeout
  /-- The words to ignore, use by use. -/
  ignore : given.ignore = valuesOf .ignore uses
  /-- The files and directories to leave out, use by use. -/
  prune : given.prune = valuesOf .prune uses
  /-- The files and directories without spelling check, use by use. -/
  skip : given.skip = valuesOf .skip uses
  /-- The switches. -/
  switches : ∀ o, o ∈ given.switches ↔ Use.switch o ∈ uses
  /-- The action words. -/
  actions : given.actions = wordsOf uses

theorem once_eq_ok {α : Type} {o : Opt} {old : Option α} {value : String}
    {read : Except String α} {a : α} (h : once o old value read = .ok a) :
    old = none ∧ read = .ok a := by
  cases old with
  | some b => simp [once] at h
  | none =>
      cases read with
      | error reason => simp [once] at h
      | ok b => simpa [once] using h

/-- A first value. -/
theorem Once.first {α : Type} {read : String → Except String α} {values : List String}
    {old : Option α} (h : Once read values old) {o : Opt} {text : String} {a : α}
    (hset : once o old text (read text) = .ok a) : Once read (values ++ [text]) (some a) := by
  obtain ⟨rfl, hread⟩ := once_eq_ok hset
  cases h
  exact .given hread

namespace Says

theorem nil : Says [] {} where
  confidence := .never
  length := .never
  complexity := .never
  timeout := .never
  ignore := rfl
  prune := rfl
  skip := rfl
  switches := by simp
  actions := rfl

variable {uses : List Use} {given after : Options}

/-- **One more value.** -/
theorem setValue (h : Says uses given) {o : Opt} {text : String}
    (hset : CommandLine.setValue given o text = .ok after) :
    Says (uses ++ [.value o text]) after := by
  obtain ⟨hconfidence, hlength, hcomplexity, htimeout, hignore, hprune, hskip, hswitches,
    hactions⟩ := h
  -- An option takes the new value, and all the others keep theirs.
  cases o
  case confidence | length | complexity | timeout =>
    obtain ⟨a, honce, hafter⟩ := exists_of_bind_eq_ok hset
    have hfirst := Once.first (by assumption) honce
    obtain rfl := Except.ok.inj hafter
    constructor <;> simp [Options.mention] <;> assumption
  case ignore | prune | skip =>
    obtain rfl := Except.ok.inj hset
    constructor <;> simp [Options.mention] <;> assumption
  all_goals cases hset

/-- **One more switch.** -/
theorem setSwitch (h : Says uses given) {o : Opt}
    (hset : CommandLine.setSwitch given o = .ok after) : Says (uses ++ [.switch o]) after := by
  obtain ⟨hconfidence, hlength, hcomplexity, htimeout, hignore, hprune, hskip, hswitches,
    hactions⟩ := h
  rw [CommandLine.setSwitch] at hset
  split_ifs at hset
  obtain rfl := Except.ok.inj hset
  constructor <;> simp [Options.mention, *]

/-- **One more word.** -/
theorem addWord (h : Says uses given) (text : String) :
    Says (uses ++ [.word text]) (given.addWord text) := by
  obtain ⟨hconfidence, hlength, hcomplexity, htimeout, hignore, hprune, hskip, hswitches,
    hactions⟩ := h
  constructor <;> simp [Options.addWord, Options.mention, *]

/-- **Some more words.** -/
theorem addWords (h : Says uses given) (texts : List String) :
    Says (uses ++ texts.map .word) (texts.foldl Options.addWord given) := by
  induction texts generalizing uses given with
  | nil => simpa using h
  | cons text texts ih => simpa using ih (h.addWord text)

end Says

/-! ### Reading -/

/-- The uses that are held back: they have been read, but their option has not been given yet. -/
def heldBack : Option Pending → List Use
  | some (.value o text) => [.value o text]
  | some (.words texts) => texts.map .word
  | _ => []

/-- The option that awaits its value. -/
def awaited : Option Pending → Option Opt
  | some (.awaiting o) => some o
  | _ => none

/-- **How far reading has come**: the uses read are those that are said and those held back. -/
def Reached (uses : List Use) (p : Progress) : Prop :=
  ∃ said, Says said p.given ∧ uses = said ++ heldBack p.pending

section

variable {uses : List Use} {p q : Progress} {after : Options} {o : Opt} {text : String}

/-- What nothing is held back of is reached as soon as it is said. -/
theorem Says.reached (h : Says uses after) {pending : Option Pending}
    (hpending : heldBack pending = []) : Reached uses ⟨after, pending⟩ :=
  ⟨uses, h, by rw [hpending, List.append_nil]⟩

/-- **Settling** says what was held back, and nothing can be awaited then. -/
theorem Reached.settle (h : Reached uses p) (hsettle : settle p.given p.pending = .ok after) :
    awaited p.pending = none ∧ Says uses after := by
  obtain ⟨given, pending⟩ := p
  obtain ⟨said, hsaid, rfl⟩ := h
  cases pending with
  | none =>
      obtain rfl := Except.ok.inj hsettle
      exact ⟨rfl, by simpa [heldBack] using hsaid⟩
  | some pending =>
      cases pending with
      | awaiting o => cases hsettle
      | value o text => exact ⟨rfl, hsaid.setValue hsettle⟩
      | words texts =>
          obtain rfl := Except.ok.inj hsettle
          exact ⟨rfl, hsaid.addWords texts⟩

/-- An option with a value that is at hand. -/
theorem Reached.beginValue_some (h : Reached uses p)
    (hbegin : beginValue p o (some text) = .ok q) :
    awaited p.pending = none ∧ Reached (uses ++ [.value o text]) q ∧ awaited q.pending = none := by
  obtain ⟨given, hsettle, hbegin⟩ := exists_of_bind_eq_ok hbegin
  obtain ⟨after, hset, hq⟩ := exists_of_bind_eq_ok hbegin
  obtain ⟨hawaited, hgiven⟩ := h.settle hsettle
  obtain rfl := Except.ok.inj hq
  exact ⟨hawaited, Says.reached (hgiven.setValue hset) rfl, rfl⟩

/-- An option with a value that is to come. -/
theorem Reached.beginValue_none (h : Reached uses p) (hbegin : beginValue p o none = .ok q) :
    awaited p.pending = none ∧ Reached uses q ∧ awaited q.pending = some o := by
  obtain ⟨given, hsettle, hq⟩ := exists_of_bind_eq_ok hbegin
  obtain ⟨hawaited, hgiven⟩ := h.settle hsettle
  obtain rfl := Except.ok.inj hq
  exact ⟨hawaited, hgiven.reached rfl, rfl⟩

/-- A switch. -/
theorem Reached.beginSwitch (h : Reached uses p) (hbegin : beginSwitch p o = .ok q) :
    awaited p.pending = none ∧ Reached (uses ++ [.switch o]) q ∧ awaited q.pending = none := by
  obtain ⟨given, hsettle, hbegin⟩ := exists_of_bind_eq_ok hbegin
  obtain ⟨after, hset, hq⟩ := exists_of_bind_eq_ok hbegin
  obtain ⟨hawaited, hgiven⟩ := h.settle hsettle
  obtain rfl := Except.ok.inj hq
  exact ⟨hawaited, Says.reached (hgiven.setSwitch hset) rfl, rfl⟩

/-- A long name is cut at its first equals sign. -/
theorem splitLong_eq {body : List Char} {name : String} {attached : Option String}
    (h : splitLong body = (name, attached)) :
    body = name.toList ++ attached.elim [] fun text => '=' :: text.toList := by
  rw [splitLong] at h
  have hbody := List.takeWhile_append_dropWhile (p := (· != '=')) (l := body)
  have hhead := List.head?_dropWhile_not (· != '=') body
  split at h
  · next c text hdrop =>
      obtain ⟨rfl, rfl⟩ := Prod.mk.inj h
      have hc : c = '=' := by simpa [hdrop] using hhead
      rw [hdrop, hc] at hbody
      simpa using hbody.symm
  · obtain ⟨rfl, rfl⟩ := Prod.mk.inj h
    simp

/-- **A long name** gives one use, or an option whose value is to come. -/
theorem Reached.readLong (h : Reached uses p) {body : List Char}
    (hread : readLong p body = .ok q) :
    awaited p.pending = none ∧
      ∃ more, Long body more (awaited q.pending) ∧ Reached (uses ++ more) q := by
  rw [CommandLine.readLong] at hread
  rcases hsplit : splitLong body with ⟨name, attached⟩
  have hbody := splitLong_eq hsplit
  rw [hsplit] at hread
  dsimp only at hread
  subst hbody
  cases ho : Opt.ofLong? name with
  | none => simp [ho] at hread
  | some o =>
      rw [ho] at hread
      cases hvalue : o.takesValue with
      | true =>
          simp only [hvalue, if_true] at hread
          cases attached with
          | some value =>
              obtain ⟨hp, hreached, hq⟩ := h.beginValue_some hread
              exact ⟨hp, _, hq ▸ .equals ho hvalue, hreached⟩
          | none =>
              obtain ⟨hp, hreached, hq⟩ := h.beginValue_none hread
              rw [Option.elim_none, List.append_nil]
              exact ⟨hp, [], hq ▸ .awaiting ho hvalue, by rwa [List.append_nil]⟩
      | false =>
          simp only [hvalue] at hread
          cases attached with
          | some value => cases hread
          | none =>
              obtain ⟨hp, hreached, hq⟩ := h.beginSwitch hread
              rw [Option.elim_none, List.append_nil]
              exact ⟨hp, _, hq ▸ .switch ho hvalue, hreached⟩

/-- **Letters**, one after another.  Where there are none, nothing may be awaited. -/
theorem Reached.readLetters (h : Reached uses p) {cs : List Char}
    (hread : readLetters p cs = .ok q) (hawaited : cs = [] → awaited p.pending = none) :
    awaited p.pending = none ∧
      ∃ more, Letters cs more (awaited q.pending) ∧ Reached (uses ++ more) q := by
  -- Behind a switch nothing is awaited, so only the first letter needs the condition.
  induction cs generalizing uses p with
  | nil =>
      obtain rfl := Except.ok.inj hread
      have hp := hawaited rfl
      exact ⟨hp, [], hp ▸ .done, by rwa [List.append_nil]⟩
  | cons c rest ih =>
      rw [CommandLine.readLetters] at hread
      cases ho : Opt.ofLetter? c with
      | none => simp [ho] at hread
      | some o =>
          rw [ho] at hread
          cases hvalue : o.takesValue with
          | false =>
              simp only [hvalue] at hread
              obtain ⟨between, hbegin, hrest⟩ := exists_of_bind_eq_ok hread
              obtain ⟨hp, hbetween, hnone⟩ := h.beginSwitch hbegin
              obtain ⟨-, more, hletters, hreached⟩ := ih hbetween hrest (fun _ => hnone)
              exact ⟨hp, _, .switch ho hvalue hletters, by simpa using hreached⟩
          | true =>
              simp only [hvalue, if_true] at hread
              cases rest with
              | nil =>
                  obtain ⟨hp, hreached, hq⟩ := h.beginValue_none hread
                  exact ⟨hp, [], hq ▸ .awaiting ho hvalue, by rwa [List.append_nil]⟩
              | cons first text =>
                  by_cases hfirst : first = '='
                  · subst hfirst
                    obtain ⟨hp, hreached, hq⟩ := h.beginValue_some hread
                    exact ⟨hp, _, hq ▸ .equals ho hvalue, hreached⟩
                  · have hattached : attachedTo (first :: text) =
                        some (String.ofList (first :: text)) := by
                      simp [attachedTo, hfirst]
                    rw [hattached] at hread
                    obtain ⟨hp, hreached, hq⟩ := h.beginValue_some hread
                    exact ⟨hp, _, hq ▸ .attached ho hvalue (by simp) (by simpa using hfirst),
                      hreached⟩

/-- **An argument that is no option**: the value that is awaited, or a word. -/
theorem Reached.readPlain (h : Reached uses p) {argument : String}
    (hplain : ¬ LooksLikeOption argument) (hread : readPlain p argument = .ok q) :
    ∃ more, Argument (awaited p.pending) argument more (awaited q.pending) ∧
      Reached (uses ++ more) q := by
  have hword (hp : awaited p.pending = none) (hq : awaited q.pending = none) :
      Argument (awaited p.pending) argument [.word argument] (awaited q.pending) := by
    rw [hp, hq]
    exact .word hplain
  obtain ⟨given, pending⟩ := p
  cases pending with
  | none =>
      obtain ⟨after, hsettle, hq⟩ := exists_of_bind_eq_ok hread
      obtain ⟨hawaited, hgiven⟩ := h.settle hsettle
      obtain rfl := Except.ok.inj hq
      exact ⟨_, hword hawaited rfl, uses, hgiven, rfl⟩
  | some pending =>
      cases pending with
      | awaiting o =>
          obtain rfl := Except.ok.inj hread
          obtain ⟨said, hsaid, rfl⟩ := h
          refine ⟨[.value o argument], .value hplain, said, hsaid, ?_⟩
          simp [heldBack]
      | value o text =>
          obtain ⟨after, hsettle, hq⟩ := exists_of_bind_eq_ok hread
          obtain ⟨hawaited, hgiven⟩ := h.settle hsettle
          obtain rfl := Except.ok.inj hq
          exact ⟨_, hword hawaited rfl, uses, hgiven, rfl⟩
      | words texts =>
          obtain rfl := Except.ok.inj hread
          obtain ⟨said, hsaid, rfl⟩ := h
          exact ⟨_, hword rfl rfl, said, hsaid, by simp [heldBack]⟩

/-- **One argument.** -/
theorem Reached.readArgument (h : Reached uses p) {argument : String}
    (hread : readArgument p argument = .ok q) :
    ∃ more, Argument (awaited p.pending) argument more (awaited q.pending) ∧
      Reached (uses ++ more) q := by
  rw [CommandLine.readArgument] at hread
  split at hread
  · next body hargument =>
      obtain ⟨hp, more, hmore, hreached⟩ := h.readLong hread
      refine ⟨more, ?_, hreached⟩
      rw [hp, ← String.ofList_toList (s := argument), hargument]
      exact .long hmore
  · next c rest _ hargument =>
      obtain ⟨hp, more, hmore, hreached⟩ := h.readLetters hread (by simp)
      refine ⟨more, ?_, hreached⟩
      rw [hp, ← String.ofList_toList (s := argument), hargument]
      exact .letters (List.cons_ne_nil _ _) hmore
  · next hlong hletters =>
      refine h.readPlain ?_ hread
      rintro ⟨c, rest, hargument⟩
      exact hletters c rest hargument

/-- **Some arguments**: what they spell is said when they have all been read. -/
theorem Reached.readFrom (h : Reached uses p) {arguments : List String}
    (hread : readFrom p arguments = .ok after) :
    ∃ more, Spelled (awaited p.pending) arguments more ∧ Says (uses ++ more) after := by
  -- Each argument adds to the uses that are reached, and the end says those that are held back.
  induction arguments generalizing uses p with
  | nil =>
      obtain ⟨hp, hgiven⟩ := h.settle hread
      exact ⟨[], hp ▸ .done, by rwa [List.append_nil]⟩
  | cons argument rest ih =>
      rw [CommandLine.readFrom] at hread
      split_ifs at hread with hseparator
      · obtain ⟨between, hsettle, hafter⟩ := exists_of_bind_eq_ok hread
        obtain ⟨hp, hgiven⟩ := h.settle hsettle
        obtain rfl := Except.ok.inj hafter
        subst hseparator
        exact ⟨_, hp ▸ .separator rest, hgiven.addWords rest⟩
      · obtain ⟨q, hargument, hrest⟩ := exists_of_bind_eq_ok hread
        obtain ⟨more, hmore, hreached⟩ := h.readArgument hargument
        obtain ⟨later, hlater, hgiven⟩ := ih hreached hrest
        exact ⟨more ++ later, .argument hmore hlater, by rwa [← List.append_assoc]⟩

end

/-- **What a command line says** is what its arguments spell, and they spell nothing else. -/
theorem exists_spelled_of_parse {arguments : List String} {given : Options}
    (h : parse arguments = .ok given) :
    ∃ uses, (∀ other, Spelled none arguments other ↔ other = uses) ∧ Says uses given := by
  obtain ⟨uses, hspelled, hgiven⟩ := (Says.nil.reached rfl).readFrom h
  refine ⟨uses, fun other => ⟨fun hother => hother.unique hspelled, ?_⟩, hgiven⟩
  rintro rfl
  exact hspelled

/-! ### What the words mean -/

namespace ActionWord

theorem ofWords_cons_of_none {word : String} (h : ofWord? word = none) (rest : List String) :
    ofWords (word :: rest) = .error word := by
  rw [ofWords, h]

theorem ofWords_cons_of_some {word : String} {meaning : ActionWord}
    (h : ofWord? word = some meaning) (rest : List String) :
    ofWords (word :: rest) = (ofWords rest).map (meaning :: ·) := by
  rw [ofWords, h]
  cases ofWords rest <;> rfl

/-- **Words are in order exactly if each has a meaning**, and then these are their meanings. -/
theorem ofWords_eq_ok_iff {words : List String} {meanings : List ActionWord} :
    ofWords words = .ok meanings ↔ words.map ofWord? = meanings.map some := by
  induction words generalizing meanings with
  | nil => cases meanings <;> simp [ofWords]
  | cons word rest ih =>
      rw [List.map_cons]
      cases hword : ofWord? word with
      | none =>
          rw [ofWords_cons_of_none hword]
          cases meanings <;> simp
      | some meaning =>
          rw [ofWords_cons_of_some hword]
          cases meanings with
          | nil => cases ofWords rest <;> simp [Except.map]
          | cons m ms =>
              rw [List.map_cons, List.cons.injEq, ← ih, Option.some.injEq]
              cases ofWords rest <;> simp [Except.map]

/-- **Words are out of order exactly if one has no meaning**, and the first such word is named. -/
theorem ofWords_eq_error_iff {words : List String} {unknown : String} :
    ofWords words = .error unknown ↔
      ∃ before behind, words = before ++ unknown :: behind ∧ ofWord? unknown = none ∧
        ∀ word ∈ before, ofWord? word ≠ none := by
  constructor
  · intro h
    induction words with
    | nil => simp [ofWords] at h
    | cons word rest ih =>
        cases hword : ofWord? word with
        | none =>
            rw [ofWords_cons_of_none hword] at h
            obtain rfl : word = unknown := by simpa using h
            exact ⟨[], rest, rfl, hword, by simp⟩
        | some meaning =>
            rw [ofWords_cons_of_some hword] at h
            have hrest : ofWords rest = .error unknown := by
              cases hr : ofWords rest <;> simp_all [Except.map]
            obtain ⟨before, behind, rfl, hunknown, hbefore⟩ := ih hrest
            exact ⟨word :: before, behind, rfl, hunknown, by simpa [hword] using hbefore⟩
  · rintro ⟨before, behind, rfl, hunknown, hbefore⟩
    induction before with
    | nil => exact ofWords_cons_of_none hunknown behind
    | cons word before ih =>
        obtain ⟨hword, hrest⟩ := List.forall_mem_cons.mp hbefore
        obtain ⟨meaning, hmeaning⟩ := Option.ne_none_iff_exists'.mp hword
        rw [List.cons_append, ofWords_cons_of_some hmeaning, ih hrest]
        rfl

/-- A meaning is among those of some words exactly if one of the words has it. -/
theorem mem_of_ofWords {words : List String} {meanings : List ActionWord}
    (h : ofWords words = .ok meanings) (meaning : ActionWord) :
    meaning ∈ meanings ↔ ∃ word ∈ words, ofWord? word = some meaning := by
  have hmem : some meaning ∈ meanings.map some ↔ meaning ∈ meanings := by simp
  rw [← hmem, ← ofWords_eq_ok_iff.mp h, List.mem_map]

theorem length_of_ofWords {words : List String} {meanings : List ActionWord}
    (h : ofWords words = .ok meanings) : meanings.length = words.length := by
  simpa using (congrArg List.length (ofWords_eq_ok_iff.mp h)).symm

end ActionWord

end LintSuite.CommandLine
