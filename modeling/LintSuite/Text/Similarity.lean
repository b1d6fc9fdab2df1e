/-!
# Similar words

Two words are similar if they share many characters in nearby places and in the same order.  A
character of one word is paired with the first equal one of the other that is not paired yet and
stands no further away than half the longer word; the similarity is the mean of the shares of each
word that are paired, and of the share of the pairs that keep their order.
-/

namespace LintSuite.Text.Similarity

/-- How far apart the characters of a pair may stand. -/
def reach (m n : Nat) : Nat := max m n / 2 - 1

/-- The first place from which a character may be paired: it is equal, free and within reach. -/
def partner? (c : Char) (low high : Nat) (b : Array Char) (taken : List Nat) : Option Nat :=
  (List.range b.size).find? fun j =>
    low ≤ j && j < high && b[j]? == some c && !taken.contains j

/-- **The pairs** of two words, by the places of the one and the other. -/
def pairs (a b : List Char) : List (Nat × Nat) :=
  let far := reach a.length b.length
  (a.zipIdx.foldl (fun (found : List (Nat × Nat)) (c, i) =>
    match partner? c (i - far) (i + far + 1) b.toArray (found.map (·.2)) with
    | some j => (i, j) :: found
    | none => found) []).reverse

/-- How many places show different characters when the paired characters of both words are written
one under the other. -/
def disorder (a b : List Char) (ps : List (Nat × Nat)) : Nat :=
  let upper := ps.map fun p => a[p.1]?
  let lower := ((ps.map (·.2)).mergeSort (· ≤ ·)).map fun j => b[j]?
  ((upper.zip lower).filter fun p => p.1 != p.2).length

/-- **How similar two words are**, from nothing to one. -/
def similarity (a b : String) : Float :=
  let (x, y) := (a.toList, b.toList)
  if x.isEmpty && y.isEmpty then 1.0
  else
    let ps := pairs x y
    if ps.isEmpty then 0.0
    else
      let m := ps.length.toFloat
      let kept := (ps.length - disorder x y ps / 2).toFloat
      (m / x.length.toFloat + m / y.length.toFloat + kept / m) / 3.0

/-- The similarity that a word must exceed to be worth a hint. -/
def threshold : Float := 0.7

/-- **The most similar of some words**, the last one of several that are equally so. -/
def closest? (word : String) (words : List String) : Option String :=
  (words.foldl (fun (best : Option (Float × String)) w =>
    let s := similarity word w
    match best with
    | some (t, _) => if t ≤ s then some (s, w) else best
    | none => if threshold < s then some (s, w) else none) none).map (·.2)

end LintSuite.Text.Similarity
