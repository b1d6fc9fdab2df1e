import LintSuite.Text.Raw

/-!
# Paths

A path keeps the spelling it was given, byte by byte.  What it *means* is its list of components:
repeated slashes, a slash at the end and dots between the first component and the last do not count,
while a leading dot and every double dot do.  So `a//b/.` and `a/b` are the same place and `./a` and
`a` are not.

Paths are compared by their components (`Path.order`), and names by their bytes.  Taking the parent,
stripping a leading dot and joining work on the spelling.  A reader of messages sees a path decoded
(`Path.text`), and two paths that differ may be shown to him alike.
-/

namespace LintSuite

open RawText

/-- A component of a path. -/
inductive Component where
  /-- The root directory. -/
  | root
  /-- A leading dot. -/
  | here
  /-- A double dot. -/
  | up
  /-- A name. -/
  | name (bytes : RawText)
  deriving DecidableEq, Repr

namespace Component

/-- The place of a kind of component in the order. -/
def rank : Component → Nat
  | .root => 0
  | .here => 1
  | .up => 2
  | .name _ => 3

/-- The order of components: by kind, then names by their bytes. -/
def order : Component → Component → Ordering
  | .name a, .name b => compare a b
  | a, b => compare a.rank b.rank

end Component

/-- **A path**, as it is spelled. -/
structure Path where
  /-- The spelling. -/
  bytes : RawText
  deriving DecidableEq, Repr

namespace Path

/-- The path that a text spells. -/
def ofText (text : String) : Path := ⟨RawText.ofText text⟩

/-- **A path as it is shown.** -/
def text (p : Path) : String := p.bytes.shown

/-- The pieces between slashes, empty ones included. -/
def segments : RawText → List RawText
  | [] => [[]]
  | b :: rest =>
    if b = slash then [] :: segments rest
    else match segments rest with
      | [] => [[b]]
      | s :: others => (b :: s) :: others

/-- Pieces with slashes between them. -/
def joined : List RawText → RawText
  | [] => []
  | [s] => s
  | s :: others => s ++ slash :: joined others

theorem segments_ne_nil (bs : RawText) : segments bs ≠ [] := by
  cases bs with
  | nil => simp [segments]
  | cons b rest =>
    simp only [segments]
    split
    · simp
    · split <;> simp

theorem joined_cons {s : RawText} {others : List RawText} (h : others ≠ []) :
    joined (s :: others) = s ++ slash :: joined others := by
  cases others with
  | nil => exact absurd rfl h
  | cons t more => rfl

/-- A byte before the first piece stands before the joined spelling. -/
theorem joined_cons_cons (b : UInt8) (s : RawText) (others : List RawText) :
    joined ((b :: s) :: others) = b :: joined (s :: others) := by
  cases others <;> rfl

/-- Joining the pieces gives the spelling back. -/
theorem joined_segments (bs : RawText) : joined (segments bs) = bs := by
  induction bs with
  | nil => rfl
  | cons b rest ih =>
    simp only [segments]
    by_cases h : b = slash
    · rw [if_pos h, joined_cons (segments_ne_nil rest), ih, h]
      rfl
    · rw [if_neg h]
      cases e : segments rest with
      | nil => exact absurd e (segments_ne_nil rest)
      | cons s others =>
        show joined ((b :: s) :: others) = b :: rest
        rw [joined_cons_cons, ← e, ih]

/-- Pieces that name nothing. -/
def isTrivial (s : RawText) : Bool :=
  s == [] || s == [dot]

/-- What the first of some pieces says about the start of the path: it starts with a dot, with the
root slash, or with nothing special. -/
def startOf : List RawText → RawText
  | [] => []
  | s :: others =>
    if s = [dot] then [dot] else if s = [] ∧ others ≠ [] then [slash] else []

/-- What stands before the body of a spelling: the root slash, a leading dot, or nothing. -/
def head (bs : RawText) : RawText :=
  startOf (segments bs)

/-- The pieces of a spelling behind its head. -/
def body (bs : RawText) : List RawText :=
  segments (bs.drop (head bs).length)

/-- The component that the head of a spelling stands for. -/
def headComponents (bs : RawText) : List Component :=
  if head bs = [slash] then [.root] else if head bs = [dot] then [.here] else []

/-- The component that a piece stands for. -/
def componentOf (s : RawText) : Component :=
  if s = [dot, dot] then .up else .name s

/-- **What a path means.** -/
def components (p : Path) : List Component :=
  headComponents p.bytes ++ ((body p.bytes).filter (!isTrivial ·)).map componentOf

/-- The order of lists of components. -/
def orderComponents : List Component → List Component → Ordering
  | [], [] => .eq
  | [], _ :: _ => .lt
  | _ :: _, [] => .gt
  | a :: as, b :: bs => (a.order b).then (orderComponents as bs)

/-- **The order of paths.** -/
def order (p q : Path) : Ordering :=
  orderComponents p.components q.components

/-- Whether two paths mean the same place. -/
def same (p q : Path) : Bool :=
  p.components == q.components

/-- The current directory. -/
def here : Path := ⟨[dot]⟩

/-- Whether a path starts at the root directory. -/
def isAbsolute (p : Path) : Bool :=
  p.bytes.head? == some slash

/-- **Joining.**  An absolute name replaces the directory; otherwise one slash stands between. -/
def join (dir : Path) (name : RawText) : Path :=
  if name.head? = some slash then ⟨name⟩
  else if dir.bytes = [] ∨ dir.bytes.getLast? = some slash then ⟨dir.bytes ++ name⟩
  else ⟨dir.bytes ++ slash :: name⟩

/-- Pieces without the trivial ones at the end. -/
def trimEnd (ss : List RawText) : List RawText :=
  (ss.reverse.dropWhile isTrivial).reverse

/-- **The parent.**  The spelling up to the last component, if that is not the root. -/
def parent? (p : Path) : Option Path :=
  match (body p.bytes).reverse.dropWhile isTrivial with
  | _ :: before => some ⟨head p.bytes ++ joined (before.dropWhile isTrivial).reverse⟩
  | [] => if head p.bytes = [dot] then some ⟨[]⟩ else none

/-- The last component, if it is a name. -/
def fileName? (p : Path) : Option RawText :=
  match p.components.getLast? with
  | some (.name s) => some s
  | _ => none

/-- The spelling behind a leading dot, if there is one. -/
def behindDot? (p : Path) : Option Path :=
  if head p.bytes = [dot] then some ⟨joined (trimEnd ((body p.bytes).dropWhile isTrivial))⟩
  else none

/-- The path and its parents, nearest first, no more than `steps` of them. -/
def ancestorsFrom : Nat → Path → List Path
  | 0, _ => []
  | steps + 1, p =>
    p :: match p.parent? with
      | some q => ancestorsFrom steps q
      | none => []

/-- **The path and its parents**, nearest first. -/
def ancestors (p : Path) : List Path :=
  ancestorsFrom (p.bytes.length + 2) p

end Path

end LintSuite
