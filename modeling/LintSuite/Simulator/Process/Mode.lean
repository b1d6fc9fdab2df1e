import LintSuite.Simulator.Text.Numeral

/-!
# Rights

The rights to a file are nine bits: to read, to write and to execute it, for its owner, for its group
and for others.  A *mode* says how they change: clauses between commas, each of which says for whom,
and then, behind plus, minus or equals signs, which rights.
-/

namespace LintSuite.Mode

/-- The bits of those whose letters are given. -/
def bitsOf (who : List Char) : Nat :=
  if who.isEmpty || who.contains 'a' then 511
  else (if who.contains 'u' then 448 else 0) + (if who.contains 'g' then 56 else 0) +
    (if who.contains 'o' then 7 else 0)

/-- The same rights for everyone. -/
def forAll (rights : Nat) : Nat := rights * 64 + rights * 8 + rights

/-- The rights that letters name, given those that there are. -/
def named (old now : Nat) (letters : List Char) : Nat :=
  letters.foldl (fun bits c => bits ||| (match c with
    | 'r' => forAll 4
    | 'w' => forAll 2
    | 'x' => forAll 1
    | 'X' => if old &&& forAll 1 = 0 then 0 else forAll 1
    | 'u' => forAll (now / 64)
    | 'g' => forAll (now / 8 % 8)
    | 'o' => forAll (now % 8)
    | _ => 0)) 0

/-- Rights after what follows in a clause: signs, and letters behind each. -/
def afterSigns? (old who : Nat) : Nat → Nat → List Char → Option Nat
  | 0, now, _ => some now
  | _ + 1, now, [] => some now
  | steps + 1, now, sign :: rest =>
    let letters := rest.takeWhile ['r', 'w', 'x', 'X', 's', 'u', 'g', 'o'].contains
    let rights := named old now letters &&& who
    let more := rest.drop letters.length
    match sign with
    | '+' => afterSigns? old who steps (now ||| rights) more
    | '-' => afterSigns? old who steps (now &&& (511 - rights)) more
    | '=' => afterSigns? old who steps ((now &&& (511 - who)) ||| rights) more
    | _ => none

/-- Rights after a clause. -/
def afterClause? (old now : Nat) (clause : List Char) : Option Nat :=
  let who := clause.takeWhile ['u', 'g', 'o', 'a'].contains
  let signs := clause.drop who.length
  if signs.isEmpty then none else afterSigns? old (bitsOf who) signs.length now signs

/-- Rights after clauses; the last one may be empty. -/
def afterClauses? (old : Nat) : Nat → List (List Char) → Option Nat
  | now, [] => some now
  | now, [[]] => some now
  | now, clause :: rest => (afterClause? old now clause).bind (afterClauses? old · rest)

/-- **The rights after a mode**, or nothing if the text is none. -/
def after? (rights : Nat) (mode : List Char) : Option Nat :=
  afterClauses? rights rights ((String.ofList mode).splitOn "," |>.map String.toList)

end LintSuite.Mode
