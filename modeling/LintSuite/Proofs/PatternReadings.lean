import LintSuite.Regex.Basic
import Mathlib

/-!
# What a pattern reads

A pattern is matched by going from places to places, all of them at once and each of them once.  That
says little about the texts it is made for, so its meaning is given apart: a pattern reads a piece of
text between what stands before it and behind it (`Regex.Reads`), by one clause for each kind of
pattern, and the two sides count for the borders only.

The two agree (`mem_places_ends`), by induction on the pattern with the equations for pieces
(`spans_followed`, `spans_repeats`) on the one side and the places of matches on the other.  The step
that is no equation is repetition.  The matcher never comes back to a place it has left, and it stops
after as many rounds as the text has places; what it finds is still everything that some number of
rounds leads to, since a place that was left has passed all it leads to on to later rounds
(`mem_places_rounds`), and since a round that stays where it is can be left out (`exists_steps_le`).

So whether a pattern fits anywhere is a question about the pieces of a text (`occurs_iff`).  What is
remembered of a match plays no part in where it ends, unless a pattern asks for it again; such
patterns are left out here (`isRegular`).

### Design decisions

**Both sides of a piece.**  A pattern may ask where the text starts or ends, or for a border of words.
So it reads a piece *between* two texts, and a language is a relation between three (`Language`).  For
most patterns the two others do not matter, and that is said where it is used.

**Places in the matcher, pieces in the meaning.**  The matcher counts places and the meaning cuts
texts.  `Spans` translates: a place is the length of what stands before it.  The matcher's proofs are
all about places, and none of them cuts a text.

### What is load-bearing

The invariant of the rounds in `mem_rounds_of_steps`.  A place that was taken and is no longer in
front has had its turn, so wherever it leads is taken too.  It is what makes it harmless to drop a match
that comes back to a known place, even though the way on from there might be longer than what is left
of the rounds.
-/

namespace LintSuite.Regex

/-! ### Pieces of a text -/

/-- **A pattern that remembers nothing**, and whose repetitions can be made. -/
def isRegular : Regex → Bool
  | .followed a b => a.isRegular && b.isRegular
  | .either a b => a.isRegular && b.isRegular
  | .repeated a least most => a.isRegular && most.all (least ≤ ·)
  | .group _ a => a.isRegular
  | .again _ => false
  | _ => true

/-- A language of pieces, each with what stands before it and behind it. -/
abbrev Language := List Char → List Char → List Char → Prop

/-- Pieces of one character. -/
def Language.ofChar (fits : Char → Bool) : Language :=
  fun _ piece _ => ∃ c, piece = [c] ∧ fits c = true

/-- Pieces of two parts. -/
def Language.followed (K L : Language) : Language :=
  fun before piece behind => ∃ front back, piece = front ++ back ∧
    K before front (back ++ behind) ∧ L (before ++ front) back behind

/-- Pieces of a number of parts. -/
def Language.times (L : Language) : Nat → Language
  | 0 => fun _ piece _ => piece = []
  | n + 1 => L.followed (L.times n)

/-- Whether the characters around an empty piece belong to words. -/
def flanks (before behind : List Char) : Bool × Bool :=
  (before.getLast?.any isWordChar, behind.head?.any isWordChar)

/-- **What a pattern reads.**  Of the subject only its regard to case counts. -/
def Reads (s : Subject) : Regex → Language
  | .empty => fun _ piece _ => piece = []
  | .char c => .ofChar (sameChar s c)
  | .any => .ofChar fun _ => true
  | .oneOf negated ranges => .ofChar fun c => inRanges s ranges c != negated
  | .followed a b => (a.Reads s).followed (b.Reads s)
  | .either a b => fun before piece behind =>
      a.Reads s before piece behind ∨ b.Reads s before piece behind
  | .repeated a least most => fun before piece behind =>
      ∃ n, least ≤ n ∧ (∀ m ∈ most, n ≤ m) ∧ (a.Reads s).times n before piece behind
  | .group _ a => a.Reads s
  | .again _ => fun _ _ _ => False
  | .start => fun before piece _ => piece = [] ∧ before = []
  | .stop => fun _ piece behind => piece = [] ∧ behind = []
  | .border atStart => fun before piece behind => piece = [] ∧
      (flanks before behind).1 ≠ (flanks before behind).2 ∧
        atStart.all (· == (flanks before behind).2) = true
  | .noBorder => fun before piece behind => piece = [] ∧
      (flanks before behind).1 = (flanks before behind).2

/-! ### Places -/

/-- **From a place of a text to another one** by a piece of a language. -/
def Spans (text : List Char) (L : Language) (i j : Nat) : Prop :=
  ∃ before piece behind, text = before ++ (piece ++ behind) ∧ before.length = i ∧
    before.length + piece.length = j ∧ L before piece behind

section Places

variable {text : List Char} {K L : Language} {i j : Nat}

theorem Spans.le (h : Spans text L i j) : i ≤ j ∧ j ≤ text.length := by
  obtain ⟨before, piece, behind, rfl, rfl, rfl, -⟩ := h
  simp only [List.length_append]
  omega

/-- The place where the text was cut settles what stands before it. -/
theorem spans_iff {before rest : List Char} :
    Spans (before ++ rest) L before.length j ↔
      ∃ piece behind, rest = piece ++ behind ∧ before.length + piece.length = j ∧
        L before piece behind := by
  constructor
  · rintro ⟨before', piece, behind, htext, hlength, hj, hread⟩
    obtain ⟨rfl, rfl⟩ := List.append_inj htext hlength.symm
    exact ⟨piece, behind, rfl, hj, hread⟩
  · rintro ⟨piece, behind, rfl, hj, hread⟩
    exact ⟨before, piece, behind, rfl, rfl, hj, hread⟩

/-- A text is cut at each of its places. -/
theorem exists_cut (h : i ≤ text.length) :
    ∃ before rest, text = before ++ rest ∧ before.length = i :=
  ⟨text.take i, text.drop i, (List.take_append_drop i text).symm, List.length_take_of_le h⟩

theorem spans_ofChar {fits : Char → Bool} (hi : i ≤ text.length) :
    Spans text (.ofChar fits) i j ↔ (text[i]?).any fits = true ∧ j = i + 1 := by
  obtain ⟨before, rest, rfl, rfl⟩ := exists_cut hi
  rw [spans_iff, List.getElem?_append_right le_rfl, Nat.sub_self]
  constructor
  · rintro ⟨piece, behind, rfl, hj, c, rfl, hc⟩
    exact ⟨by simpa using hc, by simpa using hj.symm⟩
  · rintro ⟨hany, rfl⟩
    cases rest with
    | nil => simp at hany
    | cons c rest => exact ⟨[c], rest, rfl, rfl, c, rfl, by simpa using hany⟩

/-- An empty piece stays where it is. -/
theorem spans_empty {P : List Char → List Char → Prop} {before behind : List Char} :
    Spans (before ++ behind) (fun before piece behind => piece = [] ∧ P before behind)
      before.length j ↔ j = before.length ∧ P before behind := by
  rw [spans_iff]
  constructor
  · rintro ⟨piece, behind, rfl, hj, rfl, h⟩
    exact ⟨by simpa using hj.symm, h⟩
  · rintro ⟨rfl, h⟩
    exact ⟨[], behind, rfl, by simp, rfl, h⟩

theorem spans_nothing (hi : i ≤ text.length) :
    Spans text (fun _ piece _ => piece = []) i j ↔ j = i := by
  obtain ⟨before, behind, rfl, rfl⟩ := exists_cut hi
  simpa using spans_empty (P := fun _ _ => True)

/-- **Two parts meet at a place.** -/
theorem spans_followed : Spans text (K.followed L) i j ↔
    ∃ k, Spans text K i k ∧ Spans text L k j := by
  constructor
  · rintro ⟨before, piece, behind, rfl, rfl, rfl, front, back, rfl, hfront, hback⟩
    refine ⟨(before ++ front).length, ?_, ?_⟩
    · exact ⟨before, front, back ++ behind, by simp, rfl, by simp, hfront⟩
    · exact ⟨before ++ front, back, behind, by simp, rfl, by simp [Nat.add_assoc], hback⟩
  · rintro ⟨k, ⟨before, front, rest, rfl, rfl, rfl, hfront⟩, hback⟩
    rw [← List.append_assoc, ← List.length_append, spans_iff] at hback
    obtain ⟨back, behind, rfl, rfl, hback⟩ := hback
    exact ⟨before, front ++ back, behind, by simp, rfl, by simp [Nat.add_assoc], front, back, rfl,
      hfront, hback⟩

/-! ### Steps -/

/-- A number of steps from place to place. -/
def Steps (R : Nat → Nat → Prop) : Nat → Nat → Nat → Prop
  | 0, i, j => i = j
  | n + 1, i, j => ∃ k, R i k ∧ Steps R n k j

variable {R : Nat → Nat → Prop}

theorem steps_add {m n : Nat} : Steps R (m + n) i j ↔ ∃ k, Steps R m i k ∧ Steps R n k j := by
  induction m generalizing i with
  | zero => simp [Steps]
  | succ m ih =>
      rw [Nat.succ_add, Steps]
      simp only [ih, Steps]
      constructor
      · rintro ⟨k, hk, l, hl, h⟩
        exact ⟨l, ⟨k, hk, hl⟩, h⟩
      · rintro ⟨l, ⟨k, hk, hl⟩, h⟩
        exact ⟨k, hk, l, hl, h⟩

theorem Steps.le (hR : ∀ i j, R i j → i ≤ j) {n : Nat} (h : Steps R n i j) : i ≤ j := by
  induction n generalizing i with
  | zero => exact le_of_eq h
  | succ n ih =>
      obtain ⟨k, hk, hsteps⟩ := h
      exact (hR i k hk).trans (ih hsteps)

/-- **Few steps are enough** where no step leads back: those that stay can be left out. -/
theorem exists_steps_le (hR : ∀ i j, R i j → i ≤ j) {n : Nat} (h : Steps R n i j) :
    ∃ m ≤ j - i, Steps R m i j := by
  induction n generalizing i with
  | zero => exact ⟨0, Nat.zero_le _, h⟩
  | succ n ih =>
      obtain ⟨k, hk, hsteps⟩ := h
      obtain ⟨m, hm, hfew⟩ := ih hsteps
      have hkj := hfew.le hR
      rcases (hR i k hk).eq_or_lt with rfl | hlt
      · exact ⟨m, hm, hfew⟩
      · exact ⟨m + 1, by omega, k, hk, hfew⟩

theorem spans_times (hi : i ≤ text.length) {n : Nat} :
    Spans text (L.times n) i j ↔ Steps (Spans text L) n i j := by
  induction n generalizing i with
  | zero =>
      rw [Language.times, spans_nothing hi, Steps]
      exact eq_comm
  | succ n ih =>
      rw [Language.times, spans_followed, Steps]
      exact exists_congr fun k => and_congr_right fun hk => ih hk.le.2

theorem spans_or : Spans text (fun before piece behind =>
    K before piece behind ∨ L before piece behind) i j ↔ Spans text K i j ∨ Spans text L i j := by
  constructor
  · rintro ⟨before, piece, behind, htext, hi, hj, hread | hread⟩
    · exact .inl ⟨before, piece, behind, htext, hi, hj, hread⟩
    · exact .inr ⟨before, piece, behind, htext, hi, hj, hread⟩
  · rintro (⟨before, piece, behind, htext, hi, hj, hread⟩ |
      ⟨before, piece, behind, htext, hi, hj, hread⟩)
    · exact ⟨before, piece, behind, htext, hi, hj, .inl hread⟩
    · exact ⟨before, piece, behind, htext, hi, hj, .inr hread⟩

/-- A number of parts that is not settled. -/
theorem spans_exists {P : Nat → Prop} {L : Nat → Language} :
    Spans text (fun before piece behind => ∃ n, P n ∧ L n before piece behind) i j ↔
      ∃ n, P n ∧ Spans text (L n) i j := by
  constructor
  · rintro ⟨before, piece, behind, htext, hi, hj, n, hn, hread⟩
    exact ⟨n, hn, before, piece, behind, htext, hi, hj, hread⟩
  · rintro ⟨n, hn, before, piece, behind, htext, hi, hj, hread⟩
    exact ⟨before, piece, behind, htext, hi, hj, n, hn, hread⟩

/-- **A repetition**: the parts that must be there, and no more of the others than are allowed, or, if
any number is, than the text has places. -/
theorem spans_repeated (hi : i ≤ text.length) {least : Nat} {most : Option Nat}
    (hmost : most.all (least ≤ ·) = true) :
    Spans text (fun before piece behind => ∃ n, least ≤ n ∧ (∀ m ∈ most, n ≤ m) ∧
        L.times n before piece behind) i j ↔
      ∃ k, Steps (Spans text L) least i k ∧
        ∃ n ≤ most.getD (text.length + least + 1) - least, Steps (Spans text L) n k j := by
  have hsplit : Spans text (fun before piece behind => ∃ n, least ≤ n ∧ (∀ m ∈ most, n ≤ m) ∧
      L.times n before piece behind) i j ↔
      ∃ n, (least ≤ n ∧ ∀ m ∈ most, n ≤ m) ∧ Steps (Spans text L) n i j := by
    simp only [← and_assoc]
    rw [spans_exists]
    exact exists_congr fun n => and_congr_right fun _ => spans_times hi
  rw [hsplit]
  constructor
  · rintro ⟨n, ⟨hleast, hle⟩, hsteps⟩
    obtain ⟨more, rfl⟩ := Nat.exists_eq_add_of_le hleast
    obtain ⟨k, hk, hmore⟩ := steps_add.mp hsteps
    refine ⟨k, hk, ?_⟩
    cases most with
    | some m =>
        have hm : least + more ≤ m := hle m rfl
        exact ⟨more, by simp only [Option.getD_some]; omega, hmore⟩
    | none =>
        obtain ⟨few, hfew, hsteps⟩ := exists_steps_le (fun i j h => h.le.1) hmore
        have hj : j ≤ text.length := ((spans_times hi).mpr ‹Steps _ (least + more) i j›).le.2
        exact ⟨few, by simp only [Option.getD_none]; omega, hsteps⟩
  · rintro ⟨k, hk, n, hn, hsteps⟩
    refine ⟨least + n, ⟨Nat.le_add_right least n, ?_⟩, steps_add.mpr ⟨k, hk, hsteps⟩⟩
    rintro m rfl
    have hm : least ≤ m := by simpa using hmost
    rw [Option.getD_some] at hn
    omega

end Places

/-! ### Places of matches -/

/-- The places of matches. -/
def places (ms : List Match) : List Nat :=
  ms.map Match.place

theorem mem_places_fresh {taken : List Nat} {ms : List Match} {j : Nat} :
    j ∈ places (fresh taken ms) ↔ j ∈ places ms ∧ j ∉ taken := by
  induction ms generalizing taken with
  | nil => simp [fresh, places]
  | cons m ms ih =>
      rw [fresh]
      by_cases hm : m.place ∈ taken
      · rw [if_pos (List.contains_iff_mem.mpr hm), ih]
        constructor
        · exact fun h => ⟨List.mem_cons_of_mem _ h.1, h.2⟩
        · rintro ⟨hj, hfree⟩
          rcases List.mem_cons.mp hj with rfl | hj
          · exact absurd hm hfree
          · exact ⟨hj, hfree⟩
      · rw [if_neg (mt List.contains_iff_mem.mp hm)]
        have hcons (ms : List Match) : places (m :: ms) = m.place :: places ms := rfl
        rw [hcons, hcons, List.mem_cons, List.mem_cons, ih, List.mem_cons]
        by_cases hj : j = m.place
        · subst hj
          simp [hm]
        · simp [hj]

theorem mem_places_ranked {ms : List Match} {j : Nat} :
    j ∈ places (ranked ms) ↔ j ∈ places ms := by
  rw [places, places, ranked, List.mem_map, List.mem_map]
  simp only [List.mem_mergeSort]

/-- **Keeping each place once keeps all places.** -/
theorem mem_places_distinct {ms : List Match} {j : Nat} :
    j ∈ places (distinct ms) ↔ j ∈ places ms := by
  rw [distinct, mem_places_ranked, mem_places_fresh]
  simp

theorem mem_places_append {ms ns : List Match} {j : Nat} :
    j ∈ places (ms ++ ns) ↔ j ∈ places ms ∨ j ∈ places ns := by
  rw [places, List.map_append, List.mem_append]
  rfl

/-- A round with something in front. -/
theorem rounds_cons (next : Match → List Match) (n : Nat) (taken : List Nat) (m : Match)
    (front done : List Match) :
    rounds next (n + 1) taken (m :: front) done =
      rounds next n (places (fresh taken ((m :: front).flatMap next)) ++ taken)
        (fresh taken ((m :: front).flatMap next))
        (fresh taken ((m :: front).flatMap next) ++ done) :=
  rfl

section Rounds

variable {next : Match → List Match} {R : Nat → Nat → Prop} {size : Nat}
  (hnext : ∀ m : Match, m.place ≤ size → ∀ j, j ∈ places (next m) ↔ R m.place j)
  (hR : ∀ i j, R i j → i ≤ j ∧ j ≤ size)
include hnext

theorem mem_places_flatMap {front : List Match} (hfront : ∀ i ∈ places front, i ≤ size) {j : Nat} :
    j ∈ places (front.flatMap next) ↔ ∃ i ∈ places front, R i j := by
  rw [places, List.mem_map]
  constructor
  · rintro ⟨e, he, rfl⟩
    obtain ⟨m, hm, hme⟩ := List.mem_flatMap.mp he
    have hplace : m.place ∈ places front := List.mem_map_of_mem hm
    exact ⟨m.place, hplace, (hnext m (hfront _ hplace) _).mp (List.mem_map_of_mem hme)⟩
  · rintro ⟨i, hi, hij⟩
    obtain ⟨m, hm, rfl⟩ := List.mem_map.mp hi
    obtain ⟨e, he, rfl⟩ := List.mem_map.mp ((hnext m (hfront _ hi) j).mpr hij)
    exact ⟨e, List.mem_flatMap.mpr ⟨m, hm, he⟩, rfl⟩

include hR

theorem mem_places_forced {n : Nat} {front : List Match} (hfront : ∀ i ∈ places front, i ≤ size)
    {j : Nat} : j ∈ places (forced next n front) ↔ ∃ i ∈ places front, Steps R n i j := by
  induction n generalizing front with
  | zero => simp [forced, Steps]
  | succ n ih =>
      have hmore (k : Nat) : k ∈ places (distinct (front.flatMap next)) ↔
          ∃ i ∈ places front, R i k := by
        rw [mem_places_distinct, mem_places_flatMap hnext hfront]
      have hbound : ∀ k ∈ places (distinct (front.flatMap next)), k ≤ size := fun k hk => by
        obtain ⟨i, -, hik⟩ := (hmore k).mp hk
        exact (hR i k hik).2
      rw [forced, ih hbound]
      simp only [hmore, Steps]
      constructor
      · rintro ⟨k, ⟨i, hi, hik⟩, hsteps⟩
        exact ⟨i, hi, k, hik, hsteps⟩
      · rintro ⟨i, hi, k, hik, hsteps⟩
        exact ⟨k, ⟨i, hi, hik⟩, hsteps⟩

/-- What is found is led to. -/
theorem exists_steps_of_mem_rounds {n : Nat} {taken : List Nat} {front done : List Match}
    (hfront : ∀ i ∈ places front, i ≤ size) {j : Nat}
    (h : j ∈ places (rounds next n taken front done)) :
    j ∈ places done ∨ ∃ i ∈ places front, ∃ k ≤ n, Steps R k i j := by
  induction n generalizing taken front done with
  | zero => exact .inl h
  | succ n ih =>
      cases front with
      | nil => exact .inl h
      | cons m front =>
          rw [rounds_cons] at h
          have hmore (k : Nat) (hk : k ∈ places (fresh taken ((m :: front).flatMap next))) :
              ∃ i ∈ places (m :: front), R i k :=
            (mem_places_flatMap hnext hfront).mp (mem_places_fresh.mp hk).1
          have hbound : ∀ k ∈ places (fresh taken ((m :: front).flatMap next)), k ≤ size :=
            fun k hk => by
              obtain ⟨i, -, hik⟩ := hmore k hk
              exact (hR i k hik).2
          rcases ih hbound h with hdone | ⟨k, hk, l, hl, hsteps⟩
          · rcases mem_places_append.mp hdone with hj | hj
            · obtain ⟨i, hi, hij⟩ := hmore j hj
              exact .inr ⟨i, hi, 1, Nat.le_add_left 1 n, j, hij, rfl⟩
            · exact .inl hj
          · obtain ⟨i, hi, hik⟩ := hmore k hk
            exact .inr ⟨i, hi, l + 1, Nat.succ_le_succ hl, k, hik, hsteps⟩

/-- **What is led to is found.**  The places that are taken are kept, and each of them that is not in
front any more leads to such places only.  A round hands this on to the next one. -/
theorem mem_rounds_of_steps {n : Nat} {taken : List Nat} {front done : List Match}
    (hfront : ∀ i ∈ places front, i ≤ size) (hdone : ∀ i ∈ taken, i ∈ places done)
    (hleft : ∀ i ∈ taken, i ∉ places front → ∀ j, R i j → j ∈ taken) {i j k : Nat}
    (hi : i ∈ taken) (hk : k ≤ n) (h : Steps R k i j) :
    j ∈ places (rounds next n taken front done) := by
  induction n generalizing taken front done i k with
  | zero =>
      obtain rfl : k = 0 := Nat.le_zero.mp hk
      obtain rfl : i = j := h
      exact hdone i hi
  | succ n ih =>
      cases front with
      | nil =>
          -- Nothing is in front, so no step leads out of the places that are taken.
          rw [rounds]
          refine hdone j ?_
          clear hk
          induction k generalizing i with
          | zero => exact h ▸ hi
          | succ k ihk =>
              obtain ⟨l, hil, hsteps⟩ := h
              exact ihk (hleft i hi List.not_mem_nil l hil) hsteps
      | cons m front =>
          rw [rounds_cons]
          set more := fresh taken ((m :: front).flatMap next) with hmoreDef
          have hmore (l : Nat) : l ∈ places more ↔
              (∃ i ∈ places (m :: front), R i l) ∧ l ∉ taken := by
            rw [hmoreDef, mem_places_fresh, mem_places_flatMap hnext hfront]
          have hbound : ∀ l ∈ places more, l ≤ size := fun l hl => by
            obtain ⟨⟨i, -, hil⟩, -⟩ := (hmore l).mp hl
            exact (hR i l hil).2
          -- Wherever a taken place leads to is taken now.
          have hleads : ∀ i ∈ taken, ∀ l, R i l → l ∈ places more ++ taken := fun i hi l hil => by
            rw [List.mem_append]
            by_cases hl : l ∈ taken
            · exact .inr hl
            · by_cases hinFront : i ∈ places (m :: front)
              · exact .inl ((hmore l).mpr ⟨⟨i, hinFront, hil⟩, hl⟩)
              · exact absurd (hleft i hi hinFront l hil) hl
          have hdone' : ∀ i ∈ places more ++ taken, i ∈ places (more ++ done) := fun i hi => by
            rw [mem_places_append]
            exact (List.mem_append.mp hi).imp_right (hdone i)
          have hleft' : ∀ i ∈ places more ++ taken, i ∉ places more → ∀ l, R i l →
              l ∈ places more ++ taken := fun i hi hnot =>
            hleads i ((List.mem_append.mp hi).resolve_left hnot)
          cases k with
          | zero =>
              exact ih hbound hdone' hleft' (List.mem_append_right _ hi) (Nat.zero_le n) h
          | succ k =>
              obtain ⟨l, hil, hsteps⟩ := h
              exact ih hbound hdone' hleft' (hleads i hi l hil) (Nat.le_of_succ_le_succ hk) hsteps

/-- **Rounds lead where steps do**, although each place is kept once. -/
theorem mem_places_rounds {n : Nat} {front : List Match} (hfront : ∀ i ∈ places front, i ≤ size)
    {j : Nat} :
    j ∈ places (rounds next n (places front) front front) ↔
      ∃ i ∈ places front, ∃ k ≤ n, Steps R k i j := by
  constructor
  · intro h
    rcases exists_steps_of_mem_rounds hnext hR hfront h with hj | hsteps
    · exact ⟨j, hj, 0, Nat.zero_le n, rfl⟩
    · exact hsteps
  · rintro ⟨i, hi, k, hk, hsteps⟩
    exact mem_rounds_of_steps hnext hR hfront (fun _ h => h) (fun i hi hnot => absurd hi hnot) hi hk
      hsteps

end Rounds

/-! ### The matcher -/

theorem mem_places_step {s : Subject} {fits : Char → Bool} {m : Match}
    (hm : m.place ≤ s.text.size) {j : Nat} :
    j ∈ places (step s fits m) ↔ Spans s.text.toList (.ofChar fits) m.place j := by
  rw [spans_ofChar (by simpa using hm), Array.getElem?_toList, step]
  split_ifs with hany
  · simp [places, hany]
  · simp [places, hany]

/-- What stands around a place. -/
theorem around_length {s : Subject} {before behind : List Char}
    (h : s.text.toList = before ++ behind) : around s before.length = flanks before behind := by
  rw [around, flanks, ← Array.getElem?_toList, ← Array.getElem?_toList, h,
    List.getElem?_append_right le_rfl, Nat.sub_self, List.head?_eq_getElem?]
  congr 1
  rcases List.eq_nil_or_concat before with rfl | ⟨front, c, rfl⟩
  · simp
  · simp

/-- A test of a place, which leads nowhere else. -/
theorem mem_places_test {s : Subject} {P : List Char → List Char → Prop} {test : Bool} {m : Match}
    (hm : m.place ≤ s.text.size)
    (htest : ∀ before behind, s.text.toList = before ++ behind → m.place = before.length →
      (test = true ↔ P before behind)) {j : Nat} :
    j ∈ places (if test then [m] else []) ↔
      Spans s.text.toList (fun before piece behind => piece = [] ∧ P before behind) m.place j := by
  obtain ⟨before, behind, htext, hplace⟩ := exists_cut (i := m.place) (Array.length_toList.symm ▸ hm)
  rw [htext, ← hplace, spans_empty, ← htest before behind htext hplace.symm, hplace]
  cases test <;> simp [places]

/-- **The matcher leads from a place to where the pieces end that the pattern reads.** -/
theorem mem_places_ends {s : Subject} {p : Regex} (hp : p.isRegular = true) {m : Match}
    (hm : m.place ≤ s.text.size) {j : Nat} :
    j ∈ places (ends s p m) ↔ Spans s.text.toList (p.Reads s) m.place j := by
  have hsize : s.text.toList.length = s.text.size := Array.length_toList
  have hbound {L : Language} (i j : Nat) (h : Spans s.text.toList L i j) :
      i ≤ j ∧ j ≤ s.text.size := hsize ▸ h.le
  induction p generalizing m j with
  | empty =>
      rw [ends, Reads, spans_nothing (hsize ▸ hm)]
      simp [places]
  | char c => exact mem_places_step hm
  | any => exact mem_places_step hm
  | oneOf negated ranges => exact mem_places_step hm
  | followed a b iha ihb =>
      rw [isRegular, Bool.and_eq_true] at hp
      rw [ends, Reads, spans_followed, mem_places_distinct, places, List.mem_map]
      constructor
      · rintro ⟨e', he', rfl⟩
        obtain ⟨e, he, hee'⟩ := List.mem_flatMap.mp he'
        have ha := (iha hp.1 hm).mp (List.mem_map_of_mem he)
        exact ⟨e.place, ha, (ihb hp.2 (hbound _ _ ha).2).mp (List.mem_map_of_mem hee')⟩
      · rintro ⟨k, ha, hb⟩
        obtain ⟨e, he, rfl⟩ := List.mem_map.mp ((iha hp.1 hm).mpr ha)
        obtain ⟨e', he', rfl⟩ := List.mem_map.mp ((ihb hp.2 (hbound _ _ ha).2).mpr hb)
        exact ⟨e', List.mem_flatMap.mpr ⟨e, he, he'⟩, rfl⟩
  | either a b iha ihb =>
      rw [isRegular, Bool.and_eq_true] at hp
      rw [ends, mem_places_distinct, mem_places_append, Reads, spans_or]
      exact or_congr (iha hp.1 hm) (ihb hp.2 hm)
  | repeated a least most ih =>
      rw [isRegular, Bool.and_eq_true] at hp
      have hnext : ∀ m : Match, m.place ≤ s.text.size → ∀ j,
          j ∈ places (ends s a m) ↔ Spans s.text.toList (a.Reads s) m.place j :=
        fun m hm j => ih hp.1 hm
      have hR : ∀ i j, Spans s.text.toList (a.Reads s) i j → i ≤ j ∧ j ≤ s.text.size :=
        hbound
      have hone : ∀ i ∈ places [m], i ≤ s.text.size := by simpa [places] using hm
      have hforced (k : Nat) : k ∈ places (forced (ends s a) least [m]) ↔
          Steps (Spans s.text.toList (a.Reads s)) least m.place k := by
        rw [mem_places_forced hnext hR hone]
        simp [places]
      have hfront : ∀ k ∈ places (forced (ends s a) least [m]), k ≤ s.text.size := fun k hk =>
        (((spans_times (hsize ▸ hm)).mpr ((hforced k).mp hk)).le.2).trans_eq hsize
      rw [ends, mem_places_ranked]
      show j ∈ places (rounds _ _ (places _) _ _) ↔ _
      rw [mem_places_rounds hnext hR hfront, Reads, spans_repeated (hsize ▸ hm) hp.2, hsize]
      simp only [hforced]
  | group n a ih =>
      -- What is remembered changes no place.
      rw [ends, places, List.map_map]
      exact ih hp hm
  | again n => cases hp
  | start =>
      show j ∈ places (if m.place = 0 then [m] else []) ↔ _
      rw [← if_congr (decide_eq_true_iff (p := m.place = 0)) rfl rfl]
      refine mem_places_test (P := fun before _ => before = []) hm fun before behind _ hplace => ?_
      rw [hplace, decide_eq_true_iff, List.length_eq_zero_iff]
  | stop =>
      show j ∈ places (if m.place = s.text.size then [m] else []) ↔ _
      rw [← if_congr (decide_eq_true_iff (p := m.place = s.text.size)) rfl rfl]
      refine mem_places_test (P := fun _ behind => behind = []) hm fun before behind htext hplace => ?_
      rw [hplace, ← hsize, htext, List.length_append, decide_eq_true_iff, ← List.length_eq_zero_iff]
      omega
  | border atStart =>
      show j ∈ places (if (around s m.place).1 != (around s m.place).2 &&
        atStart.all (· == (around s m.place).2) then [m] else []) ↔ _
      refine mem_places_test (P := fun before behind =>
        (flanks before behind).1 ≠ (flanks before behind).2 ∧
          atStart.all (· == (flanks before behind).2) = true) hm fun before behind htext hplace => ?_
      rw [hplace, around_length htext, Bool.and_eq_true, bne_iff_ne]
  | noBorder =>
      show j ∈ places (if (around s m.place).1 == (around s m.place).2 then [m] else []) ↔ _
      refine mem_places_test (P := fun before behind =>
        (flanks before behind).1 = (flanks before behind).2) hm fun before behind htext hplace => ?_
      rw [hplace, around_length htext, beq_iff_eq]

/-! ### Searching -/

theorem isSome_findFrom?_iff {p : Regex} {s : Subject} {n place : Nat} :
    (findFrom? p s n place).isSome = true ↔
      ∃ i, place ≤ i ∧ i < place + n ∧ ends s p ⟨i, []⟩ ≠ [] := by
  induction n generalizing place with
  | zero =>
      simp only [findFrom?, Option.isSome_none, Bool.false_eq_true, false_iff]
      rintro ⟨i, hle, hlt, -⟩
      omega
  | succ n ih =>
      rw [findFrom?]
      cases hmatch : matchAt? p s place with
      | some m =>
          have hne : ends s p ⟨place, []⟩ ≠ [] := by
            rintro hnil
            rw [matchAt?, hnil] at hmatch
            cases hmatch
          exact iff_of_true rfl ⟨place, le_rfl, by omega, hne⟩
      | none =>
          have hnil : ends s p ⟨place, []⟩ = [] := List.head?_eq_none_iff.mp hmatch
          show (findFrom? p s n (place + 1)).isSome = true ↔ _
          rw [ih]
          constructor
          · rintro ⟨i, hle, hlt, hne⟩
            exact ⟨i, by omega, by omega, hne⟩
          · rintro ⟨i, hle, hlt, hne⟩
            have hother : i ≠ place := by
              rintro rfl
              exact hne hnil
            exact ⟨i, by omega, by omega, hne⟩

/-- **A pattern fits somewhere** exactly if it reads a piece of the text. -/
theorem occurs_iff {p : Regex} (hp : p.isRegular = true) {s : Subject} :
    p.occurs s = true ↔ ∃ before piece behind, s.text.toList = before ++ (piece ++ behind) ∧
      p.Reads s before piece behind := by
  rw [occurs, find?, isSome_findFrom?_iff]
  constructor
  · rintro ⟨i, -, hlt, hne⟩
    have hi : (⟨i, []⟩ : Match).place ≤ s.text.size := by
      show i ≤ s.text.size
      omega
    obtain ⟨e, he⟩ := List.exists_mem_of_ne_nil _ hne
    obtain ⟨before, piece, behind, htext, -, -, hread⟩ :=
      (mem_places_ends hp hi).mp (List.mem_map_of_mem he)
    exact ⟨before, piece, behind, htext, hread⟩
  · rintro ⟨before, piece, behind, htext, hread⟩
    have hspans : Spans s.text.toList (p.Reads s) before.length (before.length + piece.length) :=
      ⟨before, piece, behind, htext, rfl, rfl, hread⟩
    have hsize : s.text.toList.length = s.text.size := Array.length_toList
    have hle : before.length ≤ s.text.size := hsize ▸ hspans.le.1.trans hspans.le.2
    have hmem := (mem_places_ends (m := ⟨before.length, []⟩) hp hle).mpr hspans
    have hlt : before.length < 0 + (s.text.size + 1 - 0) := by omega
    refine ⟨before.length, Nat.zero_le _, hlt, fun hnil => ?_⟩
    rw [hnil] at hmem
    cases hmem

end LintSuite.Regex
