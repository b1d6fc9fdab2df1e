/-!
# Cutting a text into lines

A line is a piece that ends with its line feed; only the last piece of a text may lack one, and then
it is not empty.  Cutting loses nothing (`flatten_cut`).

The two ways to take a line end off differ in one case, a carriage return at the very end of the
text: `bare` takes it off, `lineOf` keeps it, since there no line feed follows it.
-/

namespace LintSuite.Text.Lines

variable {α : Type} [DecidableEq α]

/-- **Cutting after a mark.**  Each piece but the last ends with the mark. -/
def cut (mark : α) : List α → List (List α)
  | [] => []
  | a :: rest =>
    if a = mark then [a] :: cut mark rest
    else match cut mark rest with
      | [] => [[a]]
      | piece :: others => (a :: piece) :: others

@[simp] theorem cut_nil (mark : α) : cut mark ([] : List α) = [] := rfl

theorem cut_mark (mark : α) (rest : List α) :
    cut mark (mark :: rest) = [mark] :: cut mark rest := by
  simp [cut]

/-- Nothing is lost. -/
theorem flatten_cut (mark : α) (text : List α) : (cut mark text).flatten = text := by
  induction text with
  | nil => rfl
  | cons a rest ih =>
    by_cases h : a = mark
    · subst h; simp [cut_mark, ih]
    · simp only [cut, h, if_false]
      split
      · next e => simp [e] at ih; simp [← ih]
      · next piece others e => simp [e] at ih; simp [ih]

/-- A list without one given last element, if it ends with it. -/
def dropLast? (last : α) (text : List α) : Option (List α) :=
  if text.getLast? = some last then some text.dropLast else none

/-- A list without one given last element, or the list itself. -/
def chop (last : α) (text : List α) : List α :=
  (dropLast? last text).getD text

/-- A piece of bytes without one line feed and then one carriage return at its end. -/
def bare (piece : List UInt8) : List UInt8 :=
  chop 0x0D (chop 0x0A piece)

/-- A piece of text without its line end: a line feed, and the carriage return before it. -/
def lineOf (piece : List Char) : List Char :=
  match dropLast? '\n' piece with
  | some body => chop '\r' body
  | none => piece

/-- The lines of a text, without their ends. -/
def ofText (text : List Char) : List (List Char) :=
  (cut '\n' text).map lineOf

end LintSuite.Text.Lines
