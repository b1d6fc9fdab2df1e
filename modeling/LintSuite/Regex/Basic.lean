/-!
# Patterns

A pattern describes texts.  From a place in a text it may lead to several places behind it
(`Regex.ends`), of which each is kept once, and the farthest comes first; that one counts
(`Regex.matchAt?`), and of the places where a match may start, the first one (`Regex.find?`). Since
each part of a pattern has its farthest place first, a part takes as much as it can.  A repetition
goes round after round and keeps only places where it has not been, so that it comes to an end
however often it may be repeated.
-/

namespace LintSuite

/-- **A pattern.** -/
inductive Regex where
  /-- Nothing. -/
  | empty
  /-- A character. -/
  | char (c : Char)
  /-- Any character. -/
  | any
  /-- A character of some ranges, or none of them. -/
  | oneOf (negated : Bool) (ranges : List (Char × Char))
  /-- One pattern and then another. -/
  | followed (a b : Regex)
  /-- One pattern or another. -/
  | either (a b : Regex)
  /-- A pattern again and again, at least and at most some times. -/
  | repeated (a : Regex) (least : Nat) (most : Option Nat)
  /-- A pattern whose part of the text is remembered under a number. -/
  | group (n : Nat) (a : Regex)
  /-- The part of the text that is remembered under a number. -/
  | again (n : Nat)
  /-- The start of the text. -/
  | start
  /-- The end of the text. -/
  | stop
  /-- A border of a word: its start, its end, or, by `none`, either of them. -/
  | border (atStart : Option Bool)
  /-- A place that is no border of a word. -/
  | noBorder
  deriving DecidableEq, Repr, Inhabited

/-- What a pattern is matched against. -/
structure Subject where
  /-- The text. -/
  text : Array Char
  /-- Whether small letters and capital ones are the same. -/
  caseless : Bool := false

/-- Where a match stands. -/
structure Match where
  /-- The place in the text. -/
  place : Nat
  /-- The parts that are remembered: their numbers, starts and ends, the latest first. -/
  groups : List (Nat × Nat × Nat) := []
  deriving DecidableEq, Repr

namespace Regex

/-- Whether a character belongs to a word. -/
def isWordChar (c : Char) : Bool := c.isAlphanum || c == '_'

/-- Whether two characters are the same for a subject. -/
def sameChar (s : Subject) (a b : Char) : Bool :=
  a == b || (s.caseless && a.toLower == b.toLower)

/-- Whether a character is in one of some ranges. -/
def inRanges (s : Subject) (ranges : List (Char × Char)) (c : Char) : Bool :=
  let within := fun c => ranges.any fun r => r.1 ≤ c && c ≤ r.2
  within c || (s.caseless && (within c.toLower || within c.toUpper))

/-- Whether the characters before and behind a place belong to words. -/
def around (s : Subject) (place : Nat) : Bool × Bool :=
  (place != 0 && (s.text[place - 1]?).any isWordChar, (s.text[place]?).any isWordChar)

/-- Matches with the places that are already taken left out. -/
def fresh (taken : List Nat) : List Match → List Match
  | [] => []
  | m :: rest =>
    if taken.contains m.place then fresh taken rest else m :: fresh (m.place :: taken) rest

/-- Matches with the farthest first. -/
def ranked (ms : List Match) : List Match := ms.mergeSort fun a b => b.place ≤ a.place

/-- **A match of each place is kept once**, the first; the farthest comes first. -/
def distinct (ms : List Match) : List Match := ranked (fresh [] ms)

/-- Going on by one character if there is a fitting one. -/
def step (s : Subject) (fits : Char → Bool) (m : Match) : List Match :=
  if (s.text[m.place]?).any fits then [{ m with place := m.place + 1 }] else []

/-- Rounds of a repetition: the places of each round, the last round first. -/
def rounds (next : Match → List Match) : Nat → List Nat → List Match → List Match → List Match
  | 0, _, _, done => done
  | _ + 1, _, [], done => done
  | n + 1, taken, front, done =>
    let more := fresh taken (front.flatMap next)
    rounds next n (more.map (·.place) ++ taken) more (more ++ done)

/-- A number of rounds that must be made. -/
def forced (next : Match → List Match) : Nat → List Match → List Match
  | 0, front => front
  | n + 1, front => forced next n (distinct (front.flatMap next))

/-- Whether the text that is remembered stands at a place again. -/
def repeats (s : Subject) (m : Match) (first last : Nat) : Bool :=
  (List.range (last - first)).all fun i =>
    match s.text[first + i]?, s.text[m.place + i]? with
    | some a, some b => sameChar s a b
    | _, _ => false

/-- **Where a pattern leads from a match.** -/
def ends (s : Subject) : Regex → Match → List Match
  | .empty, m => [m]
  | .char c, m => step s (sameChar s c) m
  | .any, m => step s (fun _ => true) m
  | .oneOf negated ranges, m => step s (fun c => inRanges s ranges c != negated) m
  | .followed a b, m => distinct ((ends s a m).flatMap (ends s b))
  | .either a b, m => distinct (ends s a m ++ ends s b m)
  | .repeated a least most, m =>
    let front := forced (ends s a) least [m]
    ranked (rounds (ends s a) (most.getD (s.text.size + least + 1) - least)
      (front.map (·.place)) front front)
  | .group n a, m =>
    (ends s a m).map fun e => { e with groups := (n, m.place, e.place) :: e.groups }
  | .again n, m =>
    match m.groups.find? (·.1 == n) with
    | some (_, first, last) =>
      if repeats s m first last then [{ m with place := m.place + (last - first) }] else []
    | none => []
  | .start, m => if m.place = 0 then [m] else []
  | .stop, m => if m.place = s.text.size then [m] else []
  | .border atStart, m =>
    let (before, behind) := around s m.place
    if before != behind && atStart.all (· == behind) then [m] else []
  | .noBorder, m =>
    let (before, behind) := around s m.place
    if before == behind then [m] else []

/-- **The match from a place on**, the one that leads farthest. -/
def matchAt? (p : Regex) (s : Subject) (place : Nat) : Option Match :=
  (p.ends s ⟨place, []⟩).head?

/-- The first match from one of some places on, with the place. -/
def findFrom? (p : Regex) (s : Subject) : Nat → Nat → Option (Nat × Match)
  | 0, _ => none
  | n + 1, place =>
    match p.matchAt? s place with
    | some m => some (place, m)
    | none => findFrom? p s n (place + 1)

/-- **The first match** from a place on, with the place where it starts. -/
def find? (p : Regex) (s : Subject) (place : Nat) : Option (Nat × Match) :=
  p.findFrom? s (s.text.size + 1 - place) place

/-- Whether a pattern fits anywhere. -/
def occurs (p : Regex) (s : Subject) : Bool := (p.find? s 0).isSome

end Regex

/-- The part of the text that a match has remembered under a number, or none. -/
def Match.part (m : Match) (s : Subject) (n : Nat) : List Char :=
  match m.groups.find? (·.1 == n) with
  | some (_, first, last) => (s.text.extract first last).toList
  | none => []

end LintSuite
