import LintSuite.FileName
import LintSuite.Text.CaseFolding
import Mathlib

/-!
# Which names are ignored

Names are compared with the ignored ones without regard to case.  To fold a character one needs a
table of all of Unicode, but what a name is compared with has only letters and dots of one byte, and
few characters fold to these: the letters themselves, their capitals, and two signs from further on
(`leadsFar_or_of_mem`).  So the folding that names go through agrees with that of the table wherever
it can make a difference (`foldCase_eq_iff`).

An ignored ending starts with a dot and has no other, so it is what stands behind the last dot of a
name that counts, and nothing before (`isIgnored_append_dot`).

### Main statements

* `foldCase_eq_iff`: for a letter of one byte, the folding that runs and the one of Unicode agree.
* `isIgnored_append_dot`: it is what stands behind the last dot that counts.
* `judgesNames_isIgnored`: which names are ignored, and what follows from that.

### Design decisions

**The table is consulted once.**  The folding of Unicode is a long list of runs.  It is looked at by
evaluation in `leadsFar_or_of_mem` alone, which says of each run that it either leads to characters of
more than one byte or is one of a few; no later proof sees the list.

**Names are as they are shown.**  What is judged is a text, and a name that is no text is judged by
what is shown of it.  That the same names are found by the pattern that is set down for them is
shown where patterns are.
-/

namespace LintSuite

open Text

/-! ### Folding to a character of one byte -/

/-- The characters of one byte. -/
def oneByte : List Char :=
  (List.range 0x80).map Char.ofNat

theorem mem_oneByte {c : Char} (h : c.toNat < 0x80) : c ∈ oneByte :=
  List.mem_map.mpr ⟨c.toNat, List.mem_range.mpr h, Char.ofNat_toNat c⟩

/-- A run whose characters fold to characters of more than one byte. -/
def LeadsFar (r : CaseTable.Run) : Prop :=
  0x80 ≤ (r.first : Int) + r.shift ∧
    ((r.last : Int) + r.shift < 0xD800 ∨
      0xE000 ≤ (r.first : Int) + r.shift ∧ (r.last : Int) + r.shift < 0x110000)

instance (r : CaseTable.Run) : Decidable (LeadsFar r) :=
  inferInstanceAs (Decidable (_ ∧ _))

/-- The other runs are those of the capitals, of the long s and of the Kelvin sign. -/
theorem leadsFar_or_of_mem {r : CaseTable.Run} (h : r ∈ caseFolds) :
    LeadsFar r ∨ r.last < 0x80 ∨ r.first = r.last ∧ (r.last = 0x17F ∨ r.last = 0x212A) := by
  revert r
  decide +kernel

theorem simpleFold_of_ascii {c : Char} (h : c.toNat < 0x80) : simpleFold c = foldCase c := by
  have hall : (oneByte.all fun c => simpleFold c == foldCase c) = true := by decide +kernel
  exact eq_of_beq (List.all_eq_true.mp hall c (mem_oneByte h))

/-- A number that leads far is that of a character. -/
theorem toNat_ofNat_of_leadsFar {r : CaseTable.Run} (h : LeadsFar r) {n : Nat}
    (hfirst : r.first ≤ n) (hlast : n ≤ r.last) :
    0x80 ≤ (Char.ofNat ((n : Int) + r.shift).toNat).toNat := by
  obtain ⟨hlow, hvalid⟩ := h
  have hchar : ((n : Int) + r.shift).toNat.isValidChar := by
    rw [Nat.isValidChar]
    omega
  rw [Char.toNat_ofNat, if_pos hchar]
  omega

/-- Any other character folds to one of more than one byte. -/
theorem le_toNat_simpleFold {c : Char} (h : 0x80 ≤ c.toNat) (hs : c ≠ 'ſ') (hk : c ≠ '\u212A') :
    0x80 ≤ (simpleFold c).toNat := by
  rw [simpleFold]
  split
  · next r hfind =>
      have hcovers := List.find?_some hfind
      simp only [CaseTable.Run.covers, Bool.and_eq_true, decide_eq_true_eq] at hcovers
      obtain ⟨⟨hfirst, hlast⟩, -⟩ := hcovers
      rcases leadsFar_or_of_mem (List.mem_of_find?_eq_some hfind) with hfar | hfew | hone
      · exact toNat_ofNat_of_leadsFar hfar hfirst hlast
      · omega
      · exfalso
        have hsign : c.toNat = 0x17F ∨ c.toNat = 0x212A := by omega
        rcases hsign with hsign | hsign
        · exact hs (Char.toNat_inj.mp hsign)
        · exact hk (Char.toNat_inj.mp hsign)
  · exact h

/-- What folds a name leaves all other characters alone. -/
theorem foldCase_of_not_ascii {c : Char} (h : 0x80 ≤ c.toNat) (hs : c ≠ 'ſ')
    (hk : c ≠ '\u212A') : foldCase c = c := by
  have hupper : ¬ (c.val ≥ 'A'.val ∧ c.val ≤ 'Z'.val) := by
    rintro ⟨-, hle⟩
    have hle' : c.toNat ≤ 90 := hle
    omega
  rw [foldCase, if_neg (by simpa using hs), if_neg (by simpa using hk), Char.toLower,
    dif_neg hupper]

/-- **Folding to a character of one byte** needs no table. -/
theorem foldCase_eq_iff {c d : Char} (h : d.toNat < 0x80) : foldCase c = d ↔ simpleFold c = d := by
  by_cases hc : c.toNat < 0x80
  · rw [simpleFold_of_ascii hc]
  by_cases hs : c = 'ſ'
  · subst hs
    rw [show simpleFold 'ſ' = foldCase 'ſ' by decide +kernel]
  by_cases hk : c = '\u212A'
  · subst hk
    rw [show simpleFold '\u212A' = foldCase '\u212A' by decide +kernel]
  have hfar := le_toNat_simpleFold (not_lt.mp hc) hs hk
  rw [foldCase_of_not_ascii (not_lt.mp hc) hs hk]
  constructor
  · rintro rfl
    exact absurd h hc
  · rintro rfl
    omega

/-! ### Folded texts -/

/-- **A plain text**: characters of one byte that fold to themselves. -/
def IsPlain (cs : List Char) : Prop :=
  ∀ c ∈ cs, c.toNat < 0x80 ∧ foldCase c = c

instance (cs : List Char) : Decidable (IsPlain cs) :=
  decidable_of_iff ((cs.all fun c => c.toNat < 0x80 && foldCase c == c) = true)
    (by simp [IsPlain])

theorem IsPlain.map_foldCase {ds : List Char} (h : IsPlain ds) : ds.map foldCase = ds := by
  rw [List.map_congr_left fun c hc => (h c hc).2, List.map_id']

/-- Equality with a plain text needs no table. -/
theorem map_foldCase_eq_iff {cs ds : List Char} (h : IsPlain ds) :
    cs.map foldCase = ds ↔ cs.map simpleFold = ds := by
  induction ds generalizing cs with
  | nil => simp
  | cons d ds ih =>
      obtain ⟨hd, hds⟩ := List.forall_mem_cons.mp h
      cases cs with
      | nil => simp
      | cons c cs =>
          rw [List.map_cons, List.map_cons, List.cons.injEq, List.cons.injEq,
            foldCase_eq_iff hd.1, ih hds]

theorem foldAlike_iff {s t : String} (h : IsPlain t.toList) :
    FoldAlike s t ↔ s.toList.map foldCase = t.toList := by
  rw [FoldAlike, (map_foldCase_eq_iff h).mp h.map_foldCase, map_foldCase_eq_iff h]

/-- A folded text ends in a plain one if the text has an ending that is alike. -/
theorem isSuffix_map_foldCase_iff {s t : String} (h : IsPlain t.toList) :
    t.toList <:+ s.toList.map foldCase ↔
      ∃ front ending, s = front ++ ending ∧ FoldAlike ending t := by
  constructor
  · rintro ⟨front, hfront⟩
    obtain ⟨before, behind, hs, -, hbehind⟩ := List.map_eq_append_iff.mp hfront.symm
    refine ⟨String.ofList before, String.ofList behind, ?_, ?_⟩
    · rw [← String.toList_inj, hs]
      simp
    · rw [foldAlike_iff h, String.toList_ofList, hbehind]
  · rintro ⟨front, ending, rfl, hending⟩
    rw [foldAlike_iff h] at hending
    rw [String.toList_append, List.map_append, hending]
    exact List.suffix_append _ _

/-! ### The last dot -/

theorem foldCase_eq_dot_iff {c : Char} : foldCase c = '.' ↔ c = '.' := by
  constructor
  · intro h
    by_cases hc : c.toNat < 0x80
    · have hall : (oneByte.all fun c => foldCase c == '.' → c == '.') = true := by
        decide +kernel
      simpa [h] using List.all_eq_true.mp hall c (mem_oneByte hc)
    · by_cases hs : c = 'ſ'
      · subst hs
        exact absurd h (by decide)
      by_cases hk : c = '\u212A'
      · subst hk
        exact absurd h (by decide)
      rwa [foldCase_of_not_ascii (not_lt.mp hc) hs hk] at h
  · rintro rfl
    decide

/-- A folded text has a dot where the text has one. -/
theorem dot_mem_map_foldCase {cs : List Char} : '.' ∈ cs.map foldCase ↔ '.' ∈ cs := by
  rw [List.mem_map]
  constructor
  · rintro ⟨c, hc, hdot⟩
    exact foldCase_eq_dot_iff.mp hdot ▸ hc
  · intro h
    exact ⟨'.', h, foldCase_eq_dot_iff.mpr rfl⟩

/-- What stands behind the last dot of two equal texts is equal, and so is what stands before. -/
theorem append_dot_inj {front front' tail tail' : List Char} (h : '.' ∉ tail) (h' : '.' ∉ tail')
    (heq : front ++ '.' :: tail = front' ++ '.' :: tail') : front = front' ∧ tail = tail' := by
  rcases List.append_eq_append_iff.mp heq with ⟨between, hfront, hbehind⟩ | ⟨between, hfront, hbehind⟩
  · cases between with
    | nil => exact ⟨by simpa using hfront.symm, by simpa using hbehind⟩
    | cons c between =>
        obtain ⟨-, htail⟩ := List.cons.inj hbehind
        exact absurd (htail ▸ List.mem_append_right _ List.mem_cons_self) h
  · cases between with
    | nil => exact ⟨by simpa using hfront, by simpa using hbehind.symm⟩
    | cons c between =>
        obtain ⟨-, htail⟩ := List.cons.inj hbehind
        exact absurd (htail ▸ List.mem_append_right _ List.mem_cons_self) h'

/-- A text with a dot, folded. -/
theorem map_foldCase_append_dot (front tail : String) :
    (front ++ "." ++ tail).toList.map foldCase =
      front.toList.map foldCase ++ '.' :: tail.toList.map foldCase := by
  simp [foldCase_eq_dot_iff.mpr rfl]

/-! ### Ignored names -/

theorem isPlain_checksumFile : IsPlain "go.sum".toList := by decide

theorem isPlain_extension : ∀ e ∈ ignoredExtensions, IsPlain ("." ++ e).toList := by
  decide +kernel

theorem dot_notMem_extension : ∀ e ∈ ignoredExtensions, '.' ∉ e.toList := by
  decide +kernel

theorem isIgnored_iff {name : String} :
    isIgnored name = true ↔ name.toList.map foldCase = "go.sum".toList ∨
      ∃ e ∈ ignoredExtensions, '.' :: e.toList <:+ name.toList.map foldCase := by
  simp [isIgnored, checksumFile]

/-- An ignored ending is what stands behind the last dot. -/
theorem isSuffix_append_dot_iff {e front tail : List Char} (he : '.' ∉ e) (htail : '.' ∉ tail) :
    '.' :: e <:+ front ++ '.' :: tail ↔ e = tail := by
  constructor
  · rintro ⟨before, hbefore⟩
    exact (append_dot_inj he htail hbefore).2
  · rintro rfl
    exact List.suffix_append _ _

/-- **What stands behind the last dot of a name decides** whether it is ignored, the file of
checksums aside. -/
theorem isIgnored_append_dot {front tail : String} (htail : '.' ∉ tail.toList)
    (hname : ¬ FoldAlike (front ++ "." ++ tail) "go.sum") :
    isIgnored (front ++ "." ++ tail) = true ↔
      ∃ e ∈ ignoredExtensions, e.toList = tail.toList.map foldCase := by
  have htail' : '.' ∉ tail.toList.map foldCase := dot_mem_map_foldCase.not.mpr htail
  rw [foldAlike_iff isPlain_checksumFile] at hname
  rw [isIgnored_iff, or_iff_right hname, map_foldCase_append_dot]
  refine exists_congr fun e => and_congr_right fun he => ?_
  exact isSuffix_append_dot_iff (dot_notMem_extension e he) htail'

/-- A name that is alike to that of the file of checksums, cut at its dot. -/
theorem tail_of_foldAlike {front tail : String} (htail : '.' ∉ tail.toList)
    (h : FoldAlike (front ++ "." ++ tail) "go.sum") : tail.toList.map foldCase = "sum".toList := by
  rw [foldAlike_iff isPlain_checksumFile, map_foldCase_append_dot] at h
  have hcut : front.toList.map foldCase ++ '.' :: tail.toList.map foldCase =
      "go".toList ++ '.' :: "sum".toList := h
  exact (append_dot_inj (dot_mem_map_foldCase.not.mpr htail) (by decide) hcut).2

/-- **How names are judged**: which are ignored, and what follows from that. -/
structure JudgesNames (ignored : String → Bool) : Prop where
  /-- Ignored are the file of checksums, and what ends in a dot and one of the extensions, both
  without regard to case. -/
  ignored_iff : ∀ name, ignored name = true ↔ FoldAlike name "go.sum" ∨
    ∃ e ∈ ["db", "der", "dll", "drawio", "exe", "gif", "gz", "jar", "jpg", "jpeg", "pdf", "pem",
      "png", "so", "tar", "tgz", "xz", "zip"],
      ∃ front ending, name = front ++ ending ∧ FoldAlike ending ("." ++ e)
  /-- No name of a source is ignored. -/
  source : ∀ front, ignored (front ++ ".go") = false
  /-- So neither sources nor tests are. -/
  kind : ∀ name, FileKind.ofName name ≠ .other → ignored name = false
  /-- A longer name that ends as the file of checksums is not ignored. -/
  longer : ∀ front ending, front ≠ "" → FoldAlike ending "go.sum" → ignored (front ++ ending) = false
  /-- Nor is a name without a dot. -/
  undotted : ∀ name, '.' ∉ name.toList → ignored name = false
  /-- Names with the same text from their last dot on are judged alike, unless one is that of the
  file of checksums. -/
  alike : ∀ front front' tail, '.' ∉ tail.toList → ¬ FoldAlike (front ++ "." ++ tail) "go.sum" →
    ¬ FoldAlike (front' ++ "." ++ tail) "go.sum" →
    ignored (front ++ "." ++ tail) = ignored (front' ++ "." ++ tail)

theorem isIgnored_source (front : String) : isIgnored (front ++ ".go") = false := by
  have hname : ¬ FoldAlike (front ++ "." ++ "go") "go.sum" := by
    intro h
    exact absurd (tail_of_foldAlike (by decide) h) (by decide)
  rw [show ".go" = "." ++ "go" from rfl, ← String.append_assoc, Bool.eq_false_iff, ne_eq,
    isIgnored_append_dot (by decide) hname]
  decide +kernel

/-- The kinds that go by the end of the name are those of sources. -/
theorem exists_of_kind_ne_other {name : String} (h : FileKind.ofName name ≠ .other) :
    ∃ front, name = front ++ ".go" := by
  have hends : ".go".toList <:+ name.toList := by
    rw [FileKind.ofName] at h
    split_ifs at h with htest hsource
    · exact (show ".go".toList <:+ testEnding.toList by decide).trans
        (List.isSuffixOf_iff_suffix.mp htest)
    · exact List.isSuffixOf_iff_suffix.mp hsource
    · exact absurd rfl h
  obtain ⟨front, hfront⟩ := hends
  refine ⟨String.ofList front, ?_⟩
  rw [← String.toList_inj, ← hfront]
  simp

theorem isIgnored_longer {front ending : String} (hfront : front ≠ "")
    (h : FoldAlike ending "go.sum") : isIgnored (front ++ ending) = false := by
  rw [foldAlike_iff isPlain_checksumFile] at h
  have hfolded : (front ++ ending).toList.map foldCase =
      (front.toList.map foldCase ++ "go".toList) ++ '.' :: "sum".toList := by
    rw [String.toList_append, List.map_append, h]
    simp
  rw [Bool.eq_false_iff, ne_eq, isIgnored_iff, hfolded, not_or]
  constructor
  · intro heq
    have hnil : front.toList.map foldCase ++ "go".toList = "go".toList :=
      (append_dot_inj (by decide) (by decide) heq).1
    simp at hnil
    exact hfront hnil
  · rintro ⟨e, he, hsuffix⟩
    rw [isSuffix_append_dot_iff (dot_notMem_extension e he) (by decide)] at hsuffix
    revert e
    decide +kernel

theorem isIgnored_undotted {name : String} (h : '.' ∉ name.toList) : isIgnored name = false := by
  rw [← dot_mem_map_foldCase] at h
  rw [Bool.eq_false_iff, ne_eq, isIgnored_iff, not_or]
  constructor
  · intro heq
    exact h (heq ▸ by decide)
  · rintro ⟨e, -, hsuffix⟩
    exact h (hsuffix.subset List.mem_cons_self)

/-- **Names are judged by their endings.** -/
theorem judgesNames_isIgnored : JudgesNames isIgnored := by
  constructor
  case ignored_iff =>
    intro name
    rw [isIgnored_iff, foldAlike_iff isPlain_checksumFile]
    refine or_congr_right (exists_congr fun e => and_congr_right fun he => ?_)
    rw [← isSuffix_map_foldCase_iff (isPlain_extension e he), String.toList_append]
    rfl
  case source => exact isIgnored_source
  case kind =>
    intro name h
    obtain ⟨front, rfl⟩ := exists_of_kind_ne_other h
    exact isIgnored_source front
  case longer => exact fun _ _ => isIgnored_longer
  case undotted => exact fun _ => isIgnored_undotted
  case alike =>
    intro front front' tail htail h h'
    rw [Bool.eq_iff_iff, isIgnored_append_dot htail h, isIgnored_append_dot htail h']

end LintSuite
