import LintSuite.Proofs.LineEnds
import LintSuite.Proofs.ShownNames
import Mathlib

/-!
# Paths below the working directory

A tool names the files it looks at by joining them to the working directory, and the normalizer takes
that directory off again, as a label that ends in a slash.  What is joined is taken off
(`normalize_join`): a file below the working directory is reported by its path from there, with the
label of the vet tool before it or without.

There is one directory for which this fails.  The path of the root directory ends in a slash, to
which joining adds none, while its label has two: what lies below the root directory keeps its
absolute path (`normalize_join_root`).

### Design decisions

**Directories as the system reports them.**  `IsReported` is what is known of a working directory: it
is absolute and ends in no slash, unless it is the root directory.  It is that exception on which the
whole matter turns, so it is not a hypothesis but a case.

**Bytes and what is shown of them.**  The directory and the path below it are bytes, and the line of a
tool is text.  What is joined is shown piece by piece, because a slash is shown as itself
(`text_join_of_ne`); so the theorem holds for names that are no text too, as the label is made of what
is shown of the directory.

### What is load-bearing

`normalize_join` is an equivalence: the line is reported by its path from the directory exactly if the
directory is not the root.  That the label fails at the root is thereby part of the statement, and the
remaining case is not hidden in a hypothesis.
-/

namespace LintSuite

open RawText Text

/-! ### Joining -/

namespace Path

/-- **A directory as the system reports it**: an absolute path without a slash at its end, unless it
is the root directory. -/
structure IsReported (dir : Path) : Prop where
  /-- It starts at the root directory. -/
  absolute : dir.bytes.head? = some slash
  /-- It ends in no slash that could be left out. -/
  last : dir.bytes ≠ [slash] → dir.bytes.getLast? ≠ some slash

/-- **A path from a directory** to a file below it. -/
structure IsRelative (rel : RawText) : Prop where
  /-- It leads somewhere. -/
  ne_nil : rel ≠ []
  /-- It does not start at the root directory. -/
  relative : rel.head? ≠ some slash

variable {dir : Path} {rel : RawText}

theorem IsReported.ne_nil (h : dir.IsReported) : dir.bytes ≠ [] := by
  intro hempty
  have habsolute := h.absolute
  rw [hempty] at habsolute
  cases habsolute

theorem text_slash_cons (bs : RawText) : (⟨slash :: bs⟩ : Path).text = "/" ++ bs.shown :=
  shown_append_slash [] bs

/-- Below the root directory, no slash is added. -/
theorem text_join_root (hrel : IsRelative rel) (hroot : dir.bytes = [slash]) :
    (dir.join rel).text = "/" ++ rel.shown := by
  rw [join, if_neg hrel.relative, hroot, if_pos (.inr rfl)]
  exact text_slash_cons rel

/-- **Below any other directory, one slash is added.** -/
theorem text_join_of_ne (hdir : dir.IsReported) (hrel : IsRelative rel)
    (hroot : dir.bytes ≠ [slash]) : (dir.join rel).text = dir.text ++ "/" ++ rel.shown := by
  rw [join, if_neg hrel.relative, if_neg (not_or.mpr ⟨hdir.ne_nil, hdir.last hroot⟩)]
  exact shown_append_slash dir.bytes rel

/-- What is below a directory that the system reports has an absolute path. -/
theorem head?_text_join (hdir : dir.IsReported) (hrel : IsRelative rel) :
    (dir.join rel).text.toList.head? = some '/' := by
  by_cases hroot : dir.bytes = [slash]
  · rw [text_join_root hrel hroot, String.toList_append]
    rfl
  · obtain ⟨more, hmore⟩ := List.head?_eq_some_iff.mp hdir.absolute
    obtain rfl : dir = ⟨slash :: more⟩ := congrArg Path.mk hmore
    rw [text_join_of_ne hdir hrel hroot, text_slash_cons, String.append_assoc, String.append_assoc,
      String.toList_append]
    rfl

end Path

/-! ### Taking labels off -/

namespace Normalizer

theorem takeOff_append (label rest : List Char) : takeOff (label ++ rest) label = rest := by
  simp [takeOff]

/-- Nothing is taken off a line that starts otherwise. -/
theorem takeOff_of_head?_ne {line label : List Char} (hne : label ≠ [])
    (h : line.head? ≠ label.head?) : takeOff line label = line := by
  obtain ⟨c, rest, rfl⟩ := List.exists_cons_of_ne_nil hne
  refine if_neg fun hlabel => ?_
  obtain ⟨more, rfl⟩ := List.isPrefixOf_iff_prefix.mp hlabel
  exact h rfl

/-- **What may stand before a path**: nothing, or the label of the vet tool. -/
def beforePath : List String := ["", vetLabel]

variable {dir : Path} {label : String} {line : List Char}

/-- **The label of the directory is all that is taken off a path**, besides what stands before it. -/
theorem strip_beforePath (dir : Path) (hlabel : label ∈ beforePath) (h : line.head? = some '/') :
    (ofDir (some dir)).strip (label.toList ++ line) =
      takeOff line (dir.text.toList ++ ['/']) := by
  have hdot : takeOff line ['.', '/'] = line :=
    takeOff_of_head?_ne (List.cons_ne_nil _ _) (by simp [h])
  have hvet : takeOff (label.toList ++ line) vetLabel.toList = line := by
    simp only [beforePath, List.mem_cons, List.not_mem_nil, or_false] at hlabel
    rcases hlabel with rfl | rfl
    · exact takeOff_of_head?_ne (by decide) (by rw [String.toList_empty, List.nil_append, h]; decide)
    · exact takeOff_append _ _
  show takeOff (takeOff (takeOff (label.toList ++ line) vetLabel.toList) ['.', '/'])
    (dir.text.toList ++ ['/']) = _
  rw [hvet, hdot]

/-- No output to ignore is told by a path, or by the label of the vet tool. -/
theorem notMem_of_mem_ignorable {cwd : Option Path} {p : Pattern} (h : p ∈ (ofDir cwd).ignorable) :
    '/' ∉ p.text ∧ ∀ label ∈ beforePath, ¬ p.text <:+: label.toList := by
  have hall : ∀ p ∈ idleOutput.map Pattern.ofSpelling,
      '/' ∉ p.text ∧ ∀ label ∈ beforePath, ¬ p.text <:+: label.toList := by decide
  exact hall p h

/-- **A label before a path does not matter to what is ignored.** -/
theorem ignores_beforePath (cwd : Option Path) (hlabel : label ∈ beforePath)
    (h : line.head? = some '/') :
    (ofDir cwd).ignores (String.ofList (label.toList ++ line)) =
      (ofDir cwd).ignores (String.ofList line) := by
  rw [Bool.eq_iff_iff, ignores, ignores, List.any_eq_true, List.any_eq_true]
  refine exists_congr fun p => and_congr_right fun hp => ?_
  have hplain := isPlain_of_mem_ofDir hp
  obtain ⟨hslash, hnot⟩ := notMem_of_mem_ignorable hp
  rw [Pattern.matchesIn_iff hplain.atStart hplain.atEnd,
    Pattern.matchesIn_iff hplain.atStart hplain.atEnd, String.toList_ofList, String.toList_ofList,
    List.infix_append_iff]
  constructor
  · rintro (hinside | hinside | ⟨front, back, htext, hfront, hback⟩)
    · exact absurd hinside (hnot label hlabel)
    · exact hinside
    -- What reaches from the label into the path has the slash with which the path starts.
    · cases back with
      | nil =>
          rw [List.append_nil] at htext
          exact absurd (htext ▸ hfront.isInfix) (hnot label hlabel)
      | cons c back =>
          obtain ⟨more, rfl⟩ := hback
          obtain rfl : c = '/' := Option.some.inj h
          exact absurd (htext ▸ by simp) hslash
  · exact fun hinside => .inr (.inl hinside)

/-- A line that is not ignored is one message. -/
theorem normalize_of_notMem (n : Normalizer) (hne : line ≠ []) (hfeed : '\n' ∉ line)
    (hkept : n.ignores (String.ofList line) = false) :
    n.normalize (String.ofList line) = [String.ofList (n.strip line)] := by
  have hlast : line.getLast? ≠ some '\n' := fun hlast => hfeed (List.mem_of_getLast? hlast)
  have hlines : Lines.ofText line = [line] := by
    rw [Lines.ofText, Lines.cut_of_notMem hne hfeed]
    simp [Lines.lineOf, Lines.dropLast?, hlast]
  rw [normalize, hkept, clean, String.toList_ofList, hlines]
  rfl

end Normalizer

/-! ### Files below the working directory -/

open Normalizer

/-- **A line that names a file below a directory**: its path, and what a tool says of it. -/
def lineBelow (dir : Path) (rel : RawText) (rest : String) : String :=
  (dir.join rel).text ++ rest

section

variable {dir : Path} {rel : RawText} {rest : String}

theorem head?_lineBelow (hdir : dir.IsReported) (hrel : Path.IsRelative rel) (rest : String) :
    (lineBelow dir rel rest).toList.head? = some '/' := by
  obtain ⟨more, hmore⟩ := List.head?_eq_some_iff.mp (Path.head?_text_join hdir hrel)
  rw [lineBelow, String.toList_append, hmore]
  rfl

/-- Such a line is reported without the label of the directory, whichever label is before it. -/
theorem normalize_beforePath (hdir : dir.IsReported) (hrel : Path.IsRelative rel)
    (hline : '\n' ∉ (lineBelow dir rel rest).toList)
    (hkept : (ofDir (some dir)).ignores (lineBelow dir rel rest) = false) {label : String}
    (hlabel : label ∈ beforePath) :
    (ofDir (some dir)).normalize (label ++ lineBelow dir rel rest) =
      [String.ofList (takeOff (lineBelow dir rel rest).toList (dir.text.toList ++ ['/']))] := by
  have hhead := head?_lineBelow hdir hrel rest
  have hne : label.toList ++ (lineBelow dir rel rest).toList ≠ [] := by
    intro hnil
    rw [(List.append_eq_nil_iff.mp hnil).2] at hhead
    cases hhead
  have hfeed : '\n' ∉ label.toList ++ (lineBelow dir rel rest).toList := by
    have hlabels : ∀ label ∈ beforePath, '\n' ∉ label.toList := by decide
    simpa using ⟨hlabels label hlabel, hline⟩
  have hboth : label ++ lineBelow dir rel rest =
      String.ofList (label.toList ++ (lineBelow dir rel rest).toList) := by
    rw [← String.toList_append, String.ofList_toList]
  rw [hboth, normalize_of_notMem _ hne hfeed, strip_beforePath dir hlabel hhead]
  rw [ignores_beforePath _ hlabel hhead, String.ofList_toList, hkept]

theorem takeOff_lineBelow_of_ne (hdir : dir.IsReported) (hrel : Path.IsRelative rel)
    (hroot : dir.bytes ≠ [slash]) (rest : String) :
    takeOff (lineBelow dir rel rest).toList (dir.text.toList ++ ['/']) =
      (rel.shown ++ rest).toList := by
  have hline : (lineBelow dir rel rest).toList =
      (dir.text.toList ++ ['/']) ++ (rel.shown ++ rest).toList := by
    rw [lineBelow, Path.text_join_of_ne hdir hrel hroot, String.append_assoc, String.toList_append,
      String.toList_append]
    rfl
  rw [hline, takeOff_append]

/-- **The root directory is not taken off**: its label has one slash more than what is joined to it. -/
theorem takeOff_lineBelow_root (hrel : Path.IsRelative rel) (hroot : dir.bytes = [slash])
    (rest : String) :
    takeOff (lineBelow dir rel rest).toList (dir.text.toList ++ ['/']) =
      (lineBelow dir rel rest).toList := by
  obtain ⟨first, more, hmore⟩ := List.exists_cons_of_ne_nil
    (mt String.toList_eq_nil_iff.mp (mt shown_eq_empty_iff.mp hrel.ne_nil))
  have hslash : first ≠ '/' := by
    rintro rfl
    exact hrel.relative ((head?_shown_iff (by decide)).mp (by rw [hmore]; rfl))
  have htext : dir.text.toList = ['/'] := by
    rw [Path.text, hroot]
    rfl
  have hline : (lineBelow dir rel rest).toList = '/' :: first :: (more ++ rest.toList) := by
    rw [lineBelow, Path.text_join_root hrel hroot, String.append_assoc, String.toList_append,
      String.toList_append, hmore]
    rfl
  rw [hline, htext]
  refine if_neg fun hlabel => ?_
  obtain ⟨behind, hbehind⟩ := List.isPrefixOf_iff_prefix.mp hlabel
  exact hslash (List.cons.inj (List.cons.inj hbehind).2).1.symm

/-- **What is joined to the working directory is taken off again**, unless that is the root
directory: then the line is left as it is. -/
theorem normalize_join (hdir : dir.IsReported) (hrel : Path.IsRelative rel)
    (hline : '\n' ∉ (lineBelow dir rel rest).toList)
    (hkept : (ofDir (some dir)).ignores (lineBelow dir rel rest) = false) :
    ∀ label ∈ beforePath,
      ((ofDir (some dir)).normalize (label ++ lineBelow dir rel rest) = [rel.shown ++ rest] ↔
        dir.bytes ≠ [slash]) ∧
      (dir.bytes = [slash] →
        (ofDir (some dir)).normalize (label ++ lineBelow dir rel rest) =
          [lineBelow dir rel rest]) := by
  intro label hlabel
  have hmessages := normalize_beforePath hdir hrel hline hkept hlabel
  by_cases hroot : dir.bytes = [slash]
  · rw [takeOff_lineBelow_root hrel hroot, String.ofList_toList] at hmessages
    -- With its slash the line is longer than what should be left of it.
    have hlonger : lineBelow dir rel rest ≠ rel.shown ++ rest := by
      intro hsame
      have hlength := congrArg (fun text => text.toList.length) hsame
      rw [lineBelow, Path.text_join_root hrel hroot, String.append_assoc, String.toList_append,
        List.length_append] at hlength
      exact absurd hlength (by simp)
    rw [hmessages]
    exact ⟨iff_of_false (by simpa using hlonger) (by simpa using hroot), fun _ => rfl⟩
  · rw [takeOff_lineBelow_of_ne hdir hrel hroot, String.ofList_toList] at hmessages
    exact ⟨iff_of_true hmessages hroot, fun h => absurd h hroot⟩

end

/-- A working directory, a file below it, and what is said of the file. -/
theorem normalize_join_work :
    Path.IsReported (.ofText "/work/proj") ∧ Path.IsRelative (ofText "vet: x/./a.go") ∧
      '\n' ∉ (lineBelow (.ofText "/work/proj") (ofText "vet: x/./a.go")
        ":3:1: /work/proj/oops\r").toList ∧
      (ofDir (some (.ofText "/work/proj"))).ignores
        (lineBelow (.ofText "/work/proj") (ofText "vet: x/./a.go")
          ":3:1: /work/proj/oops\r") = false ∧
      (ofDir (some (.ofText "/work/proj"))).normalize
        "vet: /work/proj/vet: x/./a.go:3:1: /work/proj/oops\r" =
          ["vet: x/./a.go:3:1: /work/proj/oops\r"] := by
  have hdir : Path.IsReported (.ofText "/work/proj") := ⟨by decide +kernel, by decide +kernel⟩
  have hrel : Path.IsRelative (ofText "vet: x/./a.go") := ⟨by decide +kernel, by decide +kernel⟩
  have hline : '\n' ∉ (lineBelow (.ofText "/work/proj") (ofText "vet: x/./a.go")
      ":3:1: /work/proj/oops\r").toList := by decide +kernel
  have hkept : (ofDir (some (.ofText "/work/proj"))).ignores
      (lineBelow (.ofText "/work/proj") (ofText "vet: x/./a.go")
        ":3:1: /work/proj/oops\r") = false := by decide +kernel
  refine ⟨hdir, hrel, hline, hkept, ?_⟩
  have hmessage :=
    (normalize_join hdir hrel hline hkept vetLabel (by decide)).1.mpr (by decide +kernel)
  rw [shown_ofText] at hmessage
  have htext : lineBelow (.ofText "/work/proj") (ofText "vet: x/./a.go") ":3:1: /work/proj/oops\r" =
      "/work/proj/vet: x/./a.go:3:1: /work/proj/oops\r" := by decide +kernel
  rw [htext] at hmessage
  exact hmessage

/-- **Below the root directory paths stay absolute.** -/
theorem normalize_join_root :
    (ofDir (some (.ofText "/"))).normalize "/a.go:1: oops" = ["/a.go:1: oops"] ∧
      ¬ ∀ (dir : Path) (rel : RawText) (rest : String), dir.IsReported → Path.IsRelative rel →
        '\n' ∉ (lineBelow dir rel rest).toList →
        (ofDir (some dir)).ignores (lineBelow dir rel rest) = false →
        (ofDir (some dir)).normalize (lineBelow dir rel rest) = [rel.shown ++ rest] := by
  have hroot : (ofDir (some (.ofText "/"))).normalize "/a.go:1: oops" = ["/a.go:1: oops"] := by
    decide +kernel
  refine ⟨hroot, fun h => ?_⟩
  have hrelative := h (.ofText "/") (ofText "a.go") ":1: oops"
    ⟨by decide +kernel, by decide +kernel⟩ ⟨by decide +kernel, by decide +kernel⟩
    (by decide +kernel) (by decide +kernel)
  exact absurd hrelative (by decide +kernel)

end LintSuite
