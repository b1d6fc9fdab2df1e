import LintSuite.Proofs.Path
import Mathlib

/-!
# The paths above a path

Above a path lie its parent, the parent of that, and so on (`AtOrAbove`, `Above`).  Each step takes a
component off the meaning and something off the spelling, so the climb ends, and the list of ancestors
is long enough to hold all of it (`mem_ancestors_iff`).  What is left of the spelling ends before a
slash, so that the path means what lies above it and the names behind (`exists_rest_of_parent?`).

The ancestors of a path mean the fronts of what the path means, each of them once and the longest
first (`pairwise_ancestors`).  Those of an absolute path are the directories from there up to the root
directory, one for each number of names (`exists_climbsToRoot`).

### Design decisions

**Climbing is a relation.**  The list of ancestors is computed with a bound on its length, and a
bound is a poor thing to reason about.  So what lies above a path is the reflexive and transitive
closure of taking the parent (`AtOrAbove`), and the bound is met once, in `mem_ancestors_iff`, where
the spelling that gets shorter with each step shows that it is generous enough.  No later proof
mentions it.

**Heights instead of steps.**  Two paths at or above one path are compared by how many components
they have (`AtOrAbove.unique`), and there is one for each number (`exists_atOrAbove`).  So a statement
about the climb becomes one about the fronts of a list of components.

### What is load-bearing

That the parent is spelled as the front of the path and is followed by a slash
(`exists_bytes_of_parent?`).  The meaning of the rest can then be read off its pieces alone, and this
is where trivial pieces, repeated slashes and a leading dot are dealt with, for all that is built on
it: `exists_rest_of_parent?` here, and the names of a path where lookups are concerned.
-/

namespace LintSuite.Path

open RawText

/-! ### The spelling of the parent -/

theorem joined_append {ss ts : List RawText} (hss : ss ≠ []) (hts : ts ≠ []) :
    joined (ss ++ ts) = joined ss ++ slash :: joined ts := by
  induction ss with
  | nil => exact absurd rfl hss
  | cons s ss ih =>
      cases ss with
      | nil => exact joined_cons hts
      | cons t ss =>
          rw [List.cons_append, joined_cons (by simp), ih (by simp),
            joined_cons (List.cons_ne_nil t ss), List.append_assoc, List.cons_append]

theorem joined_isPrefix {ss ts : List RawText} (h : ss <+: ts) : joined ss <+: joined ts := by
  obtain ⟨us, rfl⟩ := h
  by_cases hss : ss = []
  · rw [hss]
    exact List.nil_prefix
  by_cases hus : us = []
  · rw [hus, List.append_nil]
  · rw [joined_append hss hus]
    exact List.prefix_append _ _

theorem trimEnd_isPrefix (ss : List RawText) : trimEnd ss <+: ss := by
  rw [trimEnd, ← List.reverse_suffix, List.reverse_reverse]
  exact List.dropWhile_suffix _

/-- A spelling is its head and the pieces behind. -/
theorem head_append_joined_body (bs : RawText) : head bs ++ joined (body bs) = bs := by
  rcases head_cases bs with ⟨hhead, hbody⟩ | ⟨ds, rfl, hhead, hbody⟩ | ⟨rfl, hhead, hbody⟩ |
    ⟨ds, rfl, hhead, hbody⟩
  · rw [hhead, hbody, joined_segments, List.nil_append]
  · rw [hhead, hbody, joined_segments, List.singleton_append]
  · rfl
  · rw [hhead, hbody, joined_cons (segments_ne_nil ds), joined_segments]
    rfl

/-- **The parent is spelled as the front of the path.** -/
theorem isPrefix_of_parent? {p q : Path} (h : p.parent? = some q) :
    q.bytes <+: p.bytes := by
  rcases exists_body_of_parent? h with ⟨front, n, behind, hbody, -, -, hq⟩ | ⟨-, -, hq⟩
  · have hfront : trimEnd front <+: body p.bytes :=
      hbody ▸ (trimEnd_isPrefix front).trans (List.prefix_append _ _)
    have hpre := (List.prefix_append_right_inj (head p.bytes)).mpr (joined_isPrefix hfront)
    rwa [head_append_joined_body, ← hq] at hpre
  · rw [hq]
    exact List.nil_prefix

/-- The last of some pieces that is left is not trivial. -/
theorem exists_trimEnd_eq_concat {ss : List RawText} (h : trimEnd ss ≠ []) :
    ∃ front s, trimEnd ss = front ++ [s] ∧ isTrivial s = false ∧ s ∈ ss := by
  obtain ⟨front, s, hfront⟩ := (List.eq_nil_or_concat' _).resolve_left h
  refine ⟨front, s, hfront, ?_, mem_of_mem_trimEnd (by simp [hfront])⟩
  have hfirst := List.head?_dropWhile_not isTrivial ss.reverse
  have hrev : ss.reverse.dropWhile isTrivial = s :: front.reverse := by
    rw [← List.reverse_inj, ← trimEnd, hfront]
    simp
  rw [hrev] at hfirst
  simpa using hfirst

/-- Joined pieces end as the last of them. -/
theorem getLast?_joined_concat (front : List RawText) {s : RawText} (h : s ≠ []) :
    (joined (front ++ [s])).getLast? = s.getLast? := by
  by_cases hfront : front = []
  · rw [hfront]
    rfl
  · rw [joined_append hfront (by simp), List.getLast?_append, List.getLast?_cons]
    simp [joined, List.getLast?_eq_some_getLast h]

/-- **Behind the parent comes a slash**, unless the parent is spelled as the root directory. -/
theorem exists_bytes_of_parent? {p q : Path} (h : p.parent? = some q) (hq : q.bytes ≠ []) :
    (∃ ds, p.bytes = q.bytes ++ slash :: ds ∧ q.bytes.getLast? ≠ some slash) ∨
      (q.bytes = [slash] ∧ ∃ ds, p.bytes = slash :: ds) := by
  rcases exists_body_of_parent? h with ⟨front, n, behind, hbody, hn, -, hbytes⟩ | ⟨-, -, he⟩
  swap
  · exact absurd he hq
  by_cases htrim : trimEnd front = []
  · -- Only the head is left.
    rw [htrim, joined, List.append_nil] at hbytes
    rcases head_cases p.bytes with ⟨hhead, -⟩ | ⟨ds, hds, hhead, -⟩ | ⟨-, -, hdot⟩ |
      ⟨ds, hds, hhead, -⟩
    · exact absurd (hbytes.trans hhead) hq
    · exact .inr ⟨hbytes.trans hhead, ds, hds⟩
    · rw [hdot] at hbody
      cases front with
      | nil =>
          obtain ⟨rfl, -⟩ := List.cons.inj hbody
          simp [isTrivial] at hn
      | cons s front => simp at hbody
    · rw [hbytes, hhead]
      exact .inl ⟨ds, hds, by simp [slash_ne_dot.symm]⟩
  · obtain ⟨first, s, hfirst, hs, hmem⟩ := exists_trimEnd_eq_concat htrim
    obtain ⟨us, hus⟩ := trimEnd_isPrefix front
    have hslash : slash ∉ s := by
      have hmem' : s ∈ body p.bytes := hbody ▸ List.mem_append_left _ hmem
      exact notMem_of_mem_segments hmem'
    refine .inl ⟨joined (us ++ n :: behind), ?_, ?_⟩
    · rw [hbytes, List.append_assoc, ← joined_append htrim (by simp), ← List.append_assoc, hus,
        ← hbody, head_append_joined_body]
    · have hs' : s ≠ [] := by
        rintro rfl
        simp [isTrivial] at hs
      rw [hbytes, List.getLast?_append, hfirst, getLast?_joined_concat first hs',
        List.getLast?_eq_some_getLast hs', Option.some_or]
      exact fun hlast => hslash (Option.some.inj hlast ▸ List.getLast_mem hs')

theorem headComponents_append_slash {bs : RawText} (h : bs ≠ []) (ds : RawText) :
    headComponents (bs ++ slash :: ds) = headComponents bs := by
  have hhead : head (bs ++ slash :: ds) = head bs := by
    rw [head, head, segments_append_slash]
    cases hs : segments bs with
    | nil => exact absurd hs (segments_ne_nil bs)
    | cons s ss =>
        cases ss with
        | nil =>
            have hjoined := joined_segments bs
            rw [hs] at hjoined
            have hne : s ≠ [] := fun he => h (hjoined.symm.trans he)
            simp [startOf, hne]
        | cons t ss => simp [startOf]
  rw [headComponents, hhead, headComponents]

/-- **What a path means beyond what lies above it**: the names in the rest of its spelling. -/
theorem exists_rest_of_parent? {p q : Path} (h : p.parent? = some q) (hq : q.bytes ≠ []) :
    ∃ ds, p.components = q.components ++ named (segments ds) ∧
      (p.bytes = q.bytes ++ slash :: ds ∨
        (q.bytes = [slash] ∧ p.bytes = slash :: ds)) := by
  rcases exists_bytes_of_parent? h hq with ⟨ds, hds, -⟩ | ⟨hroot, ds, hds⟩
  · refine ⟨ds, ?_, .inl hds⟩
    rw [components_eq, hds, headComponents_append_slash hq, segments_append_slash, named_append,
      ← List.append_assoc, ← components_eq]
  · refine ⟨ds, ?_, .inr ⟨hroot, hds⟩⟩
    rw [components_eq, components_eq, hds, hroot, segments_slash_cons,
      named_cons_of_trivial isTrivial_nil, headComponents_of_head_slash (head_slash_cons ds)]
    rfl

theorem components_length_of_parent? {p q : Path} (h : p.parent? = some q) :
    p.components.length = q.components.length + 1 := by
  obtain ⟨c, -, hc⟩ := exists_components_of_parent? h
  simp [hc]

/-- The spelling gets shorter. -/
theorem length_lt_of_parent? {p q : Path} (h : p.parent? = some q) :
    q.bytes.length < p.bytes.length := by
  have hpre := isPrefix_of_parent? h
  refine lt_of_le_of_ne hpre.length_le fun hlen => ?_
  have heq : q = p := congrArg Path.mk (hpre.eq_of_length hlen)
  have hshort := components_length_of_parent? h
  rw [heq] at hshort
  omega

/-! ### Climbing -/

/-- **At or above a path**: the path, its parent, the parent of that, and so on. -/
def AtOrAbove (p q : Path) : Prop :=
  Relation.ReflTransGen (fun a b : Path => a.parent? = some b) p q

theorem atOrAbove_iff {p q : Path} :
    AtOrAbove p q ↔ p = q ∨ ∃ r, p.parent? = some r ∧ AtOrAbove r q :=
  Relation.ReflTransGen.cases_head_iff

/-- What lies above means a front of what the path means. -/
theorem AtOrAbove.components_isPrefix {p q : Path} (h : AtOrAbove p q) :
    q.components <+: p.components := by
  induction h using Relation.ReflTransGen.head_induction_on with
  | refl => exact List.prefix_rfl
  | head hparent _ ih =>
      obtain ⟨c, -, hc⟩ := exists_components_of_parent? hparent
      exact hc ▸ ih.trans (List.prefix_append _ _)

theorem AtOrAbove.length_le {p q : Path} (h : AtOrAbove p q) :
    q.components.length ≤ p.components.length :=
  h.components_isPrefix.length_le

/-- What lies above and means as much is the path itself. -/
theorem AtOrAbove.eq_of_length_le {p q : Path} (h : AtOrAbove p q)
    (hlen : p.components.length ≤ q.components.length) : p = q := by
  rcases atOrAbove_iff.mp h with rfl | ⟨r, hparent, hr⟩
  · rfl
  · have hlt := components_length_of_parent? hparent
    have hle := hr.length_le
    omega

/-- **At one height there is one path.** -/
theorem AtOrAbove.unique {p q r : Path} (hq : AtOrAbove p q) (hr : AtOrAbove p r)
    (h : q.components.length = r.components.length) : q = r := by
  have hright : Relator.RightUnique fun a b : Path => a.parent? = some b :=
    fun _ _ _ hb hc => Option.some.inj (hb.symm.trans hc)
  rcases Relation.ReflTransGen.total_of_right_unique hright hq hr with habove | habove
  · exact AtOrAbove.eq_of_length_le habove h.le
  · exact (AtOrAbove.eq_of_length_le habove h.ge).symm

/-- **At every height there is a path**, down to the first component. -/
theorem exists_atOrAbove {p : Path} {cs : List Component} (h : cs <+: p.components)
    (hne : cs ≠ []) : ∃ q, AtOrAbove p q ∧ q.components = cs := by
  induction hlen : p.components.length generalizing p with
  | zero =>
      rw [List.length_eq_zero_iff] at hlen
      rw [hlen, List.prefix_nil] at h
      exact absurd h hne
  | succ n ih =>
      by_cases heq : cs = p.components
      · exact ⟨p, .refl, heq.symm⟩
      cases hparent : p.parent? with
      | none =>
          rcases parent?_eq_none_iff.mp hparent with hp | hp
          · simp [hp] at hlen
          · rw [hp] at h heq
            rcases List.prefix_concat_iff.mp (show cs <+: [] ++ [Component.root] from h) with h | h
            · exact absurd h heq
            · exact absurd (List.prefix_nil.mp h) hne
      | some q =>
          obtain ⟨c, -, hc⟩ := exists_components_of_parent? hparent
          rw [hc] at h heq hlen
          have hfront : cs <+: q.components :=
            (List.prefix_concat_iff.mp h).resolve_left heq
          obtain ⟨r, hr, hcomponents⟩ := ih hfront (by simpa using hlen)
          exact ⟨r, atOrAbove_iff.mpr (.inr ⟨q, hparent, hr⟩), hcomponents⟩

/-- **Strictly above a path**: its parent, and what lies above that. -/
def Above (p q : Path) : Prop :=
  Relation.TransGen (fun a b : Path => a.parent? = some b) p q

theorem above_iff {p q : Path} : Above p q ↔ ∃ r, p.parent? = some r ∧ AtOrAbove r q :=
  Relation.TransGen.head'_iff

/-- What lies strictly above is the parent of something. -/
theorem Above.exists_child {p q : Path} (h : Above p q) : ∃ r : Path, r.parent? = some q := by
  obtain ⟨r, -, hr⟩ := Relation.TransGen.tail'_iff.mp h
  exact ⟨r, hr⟩

theorem AtOrAbove.bytes_ne_nil {p q : Path} (h : AtOrAbove p q) (hq : q.bytes ≠ []) :
    p.bytes ≠ [] := by
  rw [ne_eq, bytes_eq_nil_iff] at hq ⊢
  intro hp
  exact hq (List.prefix_nil.mp (hp ▸ h.components_isPrefix))

theorem Above.isPrefix {p q : Path} (h : Above p q) : q.bytes <+: p.bytes := by
  induction h with
  | single hparent => exact isPrefix_of_parent? hparent
  | tail _ hparent ih => exact (isPrefix_of_parent? hparent).trans ih

/-! ### The list of ancestors -/

theorem atOrAbove_of_mem_ancestorsFrom {steps : Nat} {p q : Path}
    (h : q ∈ ancestorsFrom steps p) : AtOrAbove p q := by
  induction steps generalizing p with
  | zero => simp [ancestorsFrom] at h
  | succ steps ih =>
      rw [ancestorsFrom, List.mem_cons] at h
      rw [atOrAbove_iff]
      cases hparent : p.parent? with
      | none => simpa [hparent, eq_comm] using h
      | some r =>
          rw [hparent] at h
          rcases h with h | h
          · exact .inl h.symm
          · exact .inr ⟨r, rfl, ih h⟩

theorem mem_ancestorsFrom {steps : Nat} {p q : Path} (h : p.bytes.length < steps)
    (habove : AtOrAbove p q) : q ∈ ancestorsFrom steps p := by
  induction steps generalizing p with
  | zero => omega
  | succ steps ih =>
      rw [ancestorsFrom]
      rcases atOrAbove_iff.mp habove with rfl | ⟨r, hparent, hr⟩
      · exact List.mem_cons_self
      · have hlt := length_lt_of_parent? hparent
        rw [hparent]
        exact List.mem_cons_of_mem _ (ih (by omega) hr)

/-- **The ancestors of a path** are all that lies at or above it. -/
theorem mem_ancestors_iff {p q : Path} : q ∈ p.ancestors ↔ AtOrAbove p q :=
  ⟨atOrAbove_of_mem_ancestorsFrom, mem_ancestorsFrom (by omega)⟩

/-- They come with the longest first. -/
theorem pairwise_ancestors (p : Path) :
    p.ancestors.Pairwise fun a b => b.components.length < a.components.length := by
  rw [ancestors]
  generalize p.bytes.length + 2 = steps
  induction steps generalizing p with
  | zero => exact .nil
  | succ steps ih =>
      rw [ancestorsFrom]
      cases hparent : p.parent? with
      | none => exact List.pairwise_singleton _ p
      | some r =>
          refine List.pairwise_cons.mpr ⟨fun q hq => ?_, ih r⟩
          have hlen := components_length_of_parent? hparent
          have hle := (atOrAbove_of_mem_ancestorsFrom hq).length_le
          omega

/-- **The first of the ancestors with a property** is the one that lies deepest. -/
theorem find?_ancestors_eq_some_iff {p q : Path} {f : Path → Bool} :
    p.ancestors.find? f = some q ↔ AtOrAbove p q ∧ f q = true ∧
      ∀ r, AtOrAbove p r → q.components.length < r.components.length → f r = false := by
  rw [List.find?_eq_some_iff_append]
  constructor
  · rintro ⟨hf, before, behind, heq, hbefore⟩
    have hmem : q ∈ p.ancestors := by simp [heq]
    refine ⟨mem_ancestors_iff.mp hmem, hf, fun r hr hlt => ?_⟩
    have hsorted := pairwise_ancestors p
    rw [← mem_ancestors_iff, heq] at hr
    rw [heq, List.pairwise_append] at hsorted
    rcases List.mem_append.mp hr with hr | hr
    · simpa using hbefore r hr
    · rcases List.mem_cons.mp hr with rfl | hr
      · omega
      · have hgt := (List.pairwise_cons.mp hsorted.2.1).1 r hr
        omega
  · rintro ⟨habove, hf, hdeeper⟩
    obtain ⟨before, behind, heq⟩ := List.append_of_mem (mem_ancestors_iff.mpr habove)
    refine ⟨hf, before, behind, heq, fun r hr => ?_⟩
    have hsorted := pairwise_ancestors p
    rw [heq, List.pairwise_append] at hsorted
    have hmem : r ∈ p.ancestors := heq ▸ List.mem_append_left _ hr
    simpa using hdeeper r (mem_ancestors_iff.mp hmem) (hsorted.2.2 r hr q List.mem_cons_self)

/-! ### Absolute paths -/

theorem head_of_isAbsolute {p : Path} (h : p.isAbsolute = true) : head p.bytes = [slash] := by
  obtain ⟨bs, hbs⟩ := List.head?_eq_some_iff.mp (beq_iff_eq.mp h)
  rw [hbs, head_slash_cons]

theorem headComponents_of_isAbsolute {p : Path} (h : p.isAbsolute = true) :
    headComponents p.bytes = [.root] := by
  rw [headComponents_of_head_slash (head_of_isAbsolute h)]

/-- What is not a step upwards in some pieces is a name. -/
theorem named_eq_map_name {ss : List RawText} (h : .up ∉ named ss) :
    named ss = ((named ss).map Component.bytes).map .name := by
  rw [List.map_map, List.map_congr_left (g := id), List.map_id]
  intro c hc
  obtain ⟨s, -, rfl⟩ := List.mem_map.mp hc
  rw [componentOf] at hc ⊢
  split_ifs at hc ⊢
  · exact absurd hc h
  · rfl

/-- An absolute path without steps upwards means names below the root directory. -/
theorem exists_names_of_isAbsolute {p : Path} (h : p.isAbsolute = true)
    (hup : .up ∉ p.components) :
    ∃ names : List RawText, p.components = .root :: names.map .name := by
  rw [components_eq, headComponents_of_isAbsolute h] at hup ⊢
  refine ⟨_, congrArg (Component.root :: ·) (named_eq_map_name fun hmem => hup ?_)⟩
  exact List.mem_append_right _ hmem

/-- Nothing lies above the root directory. -/
theorem AtOrAbove.head?_components {p q : Path} (h : AtOrAbove p q)
    (hroot : p.components.head? = some .root) : q.components.head? = some .root := by
  induction h with
  | refl => exact hroot
  | @tail a b _ hparent ih =>
      obtain ⟨c, hc, hcomponents⟩ := exists_components_of_parent? hparent
      rw [hcomponents, List.head?_append] at ih
      cases hfirst : b.components.head? with
      | none =>
          rw [hfirst] at ih
          exact absurd (Option.some.inj ih) hc
      | some d =>
          rw [hfirst] at ih
          exact ih

/-- **A climb to the root directory**: names lead to the path from there, and at or above the path lies
one directory for each number of these names. -/
structure ClimbsToRoot (start : Path) (names : List RawText) : Prop where
  /-- The path means the names below the root directory. -/
  components : start.components = .root :: names.map .name
  /-- Each number of names gives one directory on the way. -/
  level : ∀ k ≤ names.length, ∃! p, AtOrAbove start p ∧
    p.components = .root :: (names.take k).map .name
  /-- There are no others. -/
  only : ∀ p, AtOrAbove start p →
    ∃ k ≤ names.length, p.components = .root :: (names.take k).map .name

/-- **Above an absolute path lie the directories up to the root directory.** -/
theorem exists_climbsToRoot {start : Path} (h : start.isAbsolute = true)
    (hup : .up ∉ start.components) : ∃ names, ClimbsToRoot start names := by
  obtain ⟨names, hnames⟩ := exists_names_of_isAbsolute h hup
  refine ⟨names, hnames, fun k hk => ?_, fun p hp => ?_⟩
  · have hfront : Component.root :: (names.take k).map .name <+: start.components := by
      rw [hnames, List.prefix_cons_inj, List.map_take]
      exact List.take_prefix _ _
    obtain ⟨q, hq, hcomponents⟩ := exists_atOrAbove hfront (List.cons_ne_nil _ _)
    refine ⟨q, ⟨hq, hcomponents⟩, fun r hr => ?_⟩
    exact hr.1.unique hq (by rw [hr.2, hcomponents])
  · have hroot := hp.head?_components (by rw [hnames]; rfl)
    obtain ⟨rest, hrest⟩ := List.head?_eq_some_iff.mp hroot
    have hfront := hp.components_isPrefix
    rw [hrest, hnames, List.prefix_cons_inj] at hfront
    refine ⟨rest.length, by simpa using hfront.length_le, ?_⟩
    rw [hrest, List.map_take, ← List.prefix_iff_eq_take.mp hfront]

end LintSuite.Path
