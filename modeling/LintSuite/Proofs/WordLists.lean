import LintSuite.Proofs.Configuration
import LintSuite.Proofs.SmallLetters

/-!
# Lists of words on the command line

A list on the command line is given by values that may hold several entries each, set off by commas.
Cutting the values at their commas and joining the entries by commas undo each other, up to empty
entries: whether an option is repeated or given once with commas makes no difference, and a list that
was cut once is not cut again (`isWordList_splitList`).

The spelling tool is told the words to ignore in one argument, joined by commas.  A text falls at its
commas into pieces (`commaPieces`), and as no entry has a comma in it, the pieces of that argument are
the entries.  Words from the settings file follow them, cut at whatever commas they hold themselves.

### Design decisions

**Entries are not words of a language.**  All that is known of an entry is that it is not empty and has
no comma (`IsEntry`).  This is what a list keeps when it is cut, and it is what makes joining harmless.

**The argument is read back.**  What the spelling tool is told is described from its side, by the pieces
that it finds between the commas of its argument (`TellsWords`), and not by how the argument was put
together.
-/

namespace LintSuite

open CommandLine

/-! ### Pieces between commas -/

theorem comma_notMem_of_mem_betweenCommas {cs piece : List Char} (h : piece ∈ betweenCommas cs) :
    ',' ∉ piece := by
  induction cs generalizing piece with
  | nil =>
      obtain rfl := List.mem_singleton.mp h
      exact List.not_mem_nil
  | cons c cs ih =>
      rw [betweenCommas] at h
      by_cases hc : c = ','
      · rw [if_pos hc] at h
        rcases List.mem_cons.mp h with rfl | h
        · exact List.not_mem_nil
        · exact ih h
      · rw [if_neg hc] at h
        -- The character goes in front of the first piece of the others.
        generalize betweenCommas cs = pieces at h ih
        cases pieces with
        | nil =>
            obtain rfl := List.mem_singleton.mp h
            simpa using Ne.symm hc
        | cons first others =>
            rcases List.mem_cons.mp h with rfl | h
            · simp [Ne.symm hc, ih List.mem_cons_self]
            · exact ih (.tail _ h)

/-- No piece of a text has a comma in it. -/
theorem comma_notMem_of_mem_commaPieces {text piece : String} (h : piece ∈ commaPieces text) :
    ',' ∉ piece.toList := by
  obtain ⟨cs, hcs, rfl⟩ := List.mem_map.mp h
  rw [← betweenCommas_eq_splitOn] at hcs
  rw [String.toList_ofList]
  exact comma_notMem_of_mem_betweenCommas hcs

theorem commaPieces_ne_nil (text : String) : commaPieces text ≠ [] := by
  rw [commaPieces, Ne, List.map_eq_nil_iff]
  exact List.splitOn_ne_nil _ _

/-- A text without a comma is its only piece. -/
theorem commaPieces_of_notMem {text : String} (h : ',' ∉ text.toList) :
    commaPieces text = [text] := by
  have hpieces : text.toList.splitOn ',' = [text.toList] := by
    rw [List.splitOn_eq_splitOnP]
    refine List.splitOnP_eq_singleton fun c hc => beq_eq_false_iff_ne.mpr ?_
    rintro rfl
    exact h hc
  rw [commaPieces, hpieces, List.map_singleton, String.ofList_toList]

theorem flatMap_commaPieces_of_notMem {texts : List String} (h : ∀ text ∈ texts, ',' ∉ text.toList) :
    texts.flatMap commaPieces = texts := by
  induction texts with
  | nil => rfl
  | cons text texts ih =>
      rw [List.forall_mem_cons] at h
      rw [List.flatMap_cons, commaPieces_of_notMem h.1, ih h.2, List.singleton_append]

/-! ### Entries -/

theorem splitList_eq_filter (values : List String) :
    splitList values = (values.flatMap commaPieces).filter (· ≠ "") :=
  splitList_eq_entries values

/-- **A word that can stand in a list**: it is not empty and has no comma in it. -/
structure IsEntry (word : String) : Prop where
  /-- It is not empty. -/
  ne_empty : word ≠ ""
  /-- It is one piece. -/
  unparted : ',' ∉ word.toList

theorem isEntry_of_mem_splitList {values : List String} {word : String}
    (h : word ∈ splitList values) : IsEntry word := by
  rw [splitList_eq_filter, List.mem_filter, List.mem_flatMap] at h
  obtain ⟨⟨value, -, hpiece⟩, hne⟩ := h
  exact ⟨of_decide_eq_true hne, comma_notMem_of_mem_commaPieces hpiece⟩

/-- **A list of entries is not cut any further.** -/
theorem splitList_of_isEntry {words : List String} (h : ∀ word ∈ words, IsEntry word) :
    splitList words = words := by
  rw [splitList_eq_filter, flatMap_commaPieces_of_notMem fun word hword => (h word hword).unparted,
    List.filter_eq_self]
  exact fun word hword => decide_eq_true (h word hword).ne_empty

/-- **Several values are worth as much as one** in which they are joined by commas. -/
theorem splitList_commaJoined (values : List String) :
    splitList [Tool.commaJoined values] = splitList values := by
  rw [splitList_eq_filter, splitList_eq_filter, List.flatMap_singleton]
  cases values with
  | nil => decide
  | cons value values => rw [commaPieces_commaJoined (List.cons_ne_nil _ _)]

/-! ### The words to ignore -/

/-- **The option for words to ignore** of the tool that is handed files: none without words, else one
argument that falls into the words at its commas. -/
inductive TellsWords : List String → List String → Prop
  /-- There are no words. -/
  | none : TellsWords [] []
  /-- There are some. -/
  | some {words : List String} {argument : String} (hne : words ≠ [])
      (hpieces : commaPieces argument = words) : TellsWords words ["-i", argument]

/-- The spelling tool is told the pieces of the words to ignore. -/
theorem tellsWords_configArgs (config : RunConfig) :
    TellsWords (config.ignore.flatMap commaPieces) (Tool.spelling.configArgs config) := by
  rw [Tool.configArgs]
  cases hignore : config.ignore with
  | nil => exact .none
  | cons word words =>
      refine .some ?_ (commaPieces_commaJoined (List.cons_ne_nil word words))
      rw [List.flatMap_cons]
      exact List.append_ne_nil_of_left_ne_nil (commaPieces_ne_nil word) _

/-- **What a list on the command line comes to.** -/
structure IsWordList (values words : List String) : Prop where
  /-- The words are what stands between the commas of the values, unless nothing does. -/
  between : words = (values.flatMap commaPieces).filter (· ≠ "")
  /-- None of them is empty, and none has a comma in it. -/
  entries : ∀ word ∈ words, word ≠ "" ∧ ',' ∉ word.toList
  /-- One value in which the others are joined by commas gives the same words. -/
  joined : splitList [Tool.commaJoined values] = words
  /-- So do the words themselves. -/
  again : splitList words = words
  /-- And so does one value in which the words are joined by commas. -/
  rejoined : splitList [Tool.commaJoined words] = words
  /-- As words to ignore, they are what the spelling tool is told, followed by the pieces of what the
  settings file says. -/
  told : ∀ (system : String) (given : Options) (file : Settings) (selection : Selection)
    (moduleRoot : Bool) (files : List Path), given.ignore = values →
      ∃ option, TellsWords (words ++ file.ignore.flatMap commaPieces) option ∧
        Tool.spelling.filesCommand (.of system (given.flags.merge file) selection moduleRoot) files =
          ["misspell"] ++ option ++ files.map Path.text

/-- **Cutting values at commas gives a list of words**, whatever the values are. -/
theorem isWordList_splitList (values : List String) : IsWordList values (splitList values) := by
  have hentry : ∀ word ∈ splitList values, IsEntry word := fun _ => isEntry_of_mem_splitList
  have hagain : splitList (splitList values) = splitList values := splitList_of_isEntry hentry
  constructor
  case between => exact splitList_eq_filter values
  case entries => exact fun word hword => ⟨(hentry word hword).ne_empty, (hentry word hword).unparted⟩
  case joined => exact splitList_commaJoined values
  case again => exact hagain
  case rejoined => rw [splitList_commaJoined, hagain]
  case told =>
    rintro system given file selection moduleRoot files rfl
    refine ⟨_, ?_, rfl⟩
    have hpieces : (splitList given.ignore ++ file.ignore).flatMap commaPieces =
        splitList given.ignore ++ file.ignore.flatMap commaPieces := by
      rw [List.flatMap_append, flatMap_commaPieces_of_notMem fun word hword =>
        (hentry word hword).unparted]
    rw [← hpieces]
    exact tellsWords_configArgs (.of system (given.flags.merge file) selection moduleRoot)

/-- Empty entries are dropped wherever they stand. -/
example : splitList [",teh,,", "", "recieve, hte"] = ["teh", "recieve", " hte"] := by
  decide +kernel

end LintSuite
