import Mathlib
import LintSuite.Path

/-!
# What paths mean

A path is a spelling, and its meaning is a list of components.  This module settles how the two go
together.  A spelling is the same as its pieces between slashes (`joined_segments`,
`segments_joined`), and its meaning is read off the pieces: the first one says where the path starts,
and every piece that is not trivial is a component (`components_eq`).

From there each operation on spellings gets its law on components: joining a name appends it
(`components_join`), the parent drops the last one (`exists_components_of_parent?`), and stripping a
leading dot drops that (`exists_behindDot`).

The order of paths is the lexicographic order of their components (`order_eq_compareLex`), so it is
a linear order of meanings: two paths compare as equal exactly if they mean the same
(`order_eq_eq_iff`).

### Design decisions

**Spellings are bytes.**  A slash and a dot are single bytes that are part of no other character, so
nothing here asks whether a spelling is text.  What is shown of a path is a matter of its own.

**Pieces between spelling and meaning.**  Every operation is done on spellings, and every law is about
components.  The pieces between slashes stand in the middle: an operation takes pieces away or adds
some, and `components_eq` says what remaining pieces mean.

### What is load-bearing

`head_cases`: a spelling starts at the root, with a dot, or with nothing special, and in each case its
body is known.  Where a slash at the front is the root and where a dot at the front is kept is decided
there, and the laws for joining, for the parent and for a leading dot each follow by these three cases.
-/

namespace LintSuite

open RawText

namespace Path

/-! ### Pieces between slashes -/

@[simp] theorem segments_nil : segments [] = [[]] := rfl

@[simp] theorem segments_slash_cons (bs : RawText) :
    segments (slash :: bs) = [] :: segments bs := by
  simp [segments]

/-- Any other byte belongs to the first piece. -/
theorem exists_segments_cons {c : UInt8} (hc : c ≠ slash) (bs : RawText) :
    ∃ s others, segments bs = s :: others ∧ segments (c :: bs) = (c :: s) :: others := by
  cases h : segments bs with
  | nil => exact absurd h (segments_ne_nil bs)
  | cons s others => exact ⟨s, others, rfl, by simp [segments, hc, h]⟩

/-- A slash in the middle separates the pieces before it from those behind. -/
theorem segments_append_slash (bs ds : RawText) :
    segments (bs ++ slash :: ds) = segments bs ++ segments ds := by
  induction bs with
  | nil => simp
  | cons c bs ih =>
      by_cases hc : c = slash
      · subst hc
        simp [ih]
      · obtain ⟨s, others, h₁, h₂⟩ := exists_segments_cons hc bs
        obtain ⟨t, more, h₃, h₄⟩ := exists_segments_cons hc (bs ++ slash :: ds)
        rw [ih, h₁, List.cons_append, List.cons.injEq] at h₃
        rw [List.cons_append, h₄, h₂, ← h₃.1, ← h₃.2, List.cons_append]

theorem segments_dot_slash (bs : RawText) :
    segments (dot :: slash :: bs) = [dot] :: segments bs :=
  segments_append_slash [dot] bs

/-- What has no slash is one piece. -/
theorem segments_of_notMem {s : RawText} (h : slash ∉ s) : segments s = [s] := by
  induction s with
  | nil => rfl
  | cons c s ih =>
      rw [List.mem_cons, not_or] at h
      simp [segments, Ne.symm h.1, ih h.2]

/-- No piece has a slash. -/
theorem notMem_of_mem_segments {bs s : RawText} (h : s ∈ segments bs) : slash ∉ s := by
  induction bs generalizing s with
  | nil => simp_all
  | cons c bs ih =>
      by_cases hc : c = slash
      · subst hc
        rw [segments_slash_cons, List.mem_cons] at h
        rcases h with rfl | h
        · simp
        · exact ih h
      · obtain ⟨t, others, h₁, h₂⟩ := exists_segments_cons hc bs
        rw [h₂, List.mem_cons] at h
        rcases h with rfl | h
        · rw [List.mem_cons, not_or]
          exact ⟨Ne.symm hc, ih (h₁ ▸ List.mem_cons_self)⟩
        · exact ih (h₁ ▸ List.mem_cons_of_mem _ h)

/-- Pieces without slashes are the pieces of the text they join to. -/
theorem segments_joined {ss : List RawText} (hne : ss ≠ []) (h : ∀ s ∈ ss, slash ∉ s) :
    segments (joined ss) = ss := by
  induction ss with
  | nil => exact absurd rfl hne
  | cons s others ih =>
      by_cases ho : others = []
      · subst ho
        exact segments_of_notMem (h s List.mem_cons_self)
      · rw [joined_cons ho, segments_append_slash,
          segments_of_notMem (h s List.mem_cons_self),
          ih ho fun t ht => h t (List.mem_cons_of_mem _ ht)]
        rfl

/-! ### The meaning of pieces -/

/-- The components that some pieces name. -/
def named (ss : List RawText) : List Component :=
  (ss.filter (!isTrivial ·)).map componentOf

@[simp] theorem named_nil : named [] = [] := rfl

@[simp] theorem named_append (ss ts : List RawText) :
    named (ss ++ ts) = named ss ++ named ts := by
  simp [named]

theorem named_cons_of_trivial {s : RawText} (h : isTrivial s = true)
    (ss : List RawText) : named (s :: ss) = named ss := by
  simp [named, h]

theorem named_cons_of_not_trivial {s : RawText} (h : isTrivial s = false)
    (ss : List RawText) : named (s :: ss) = componentOf s :: named ss := by
  simp [named, h]

@[simp] theorem isTrivial_nil : isTrivial [] = true := rfl

@[simp] theorem isTrivial_dot : isTrivial [dot] = true := rfl

/-- Trivial pieces name nothing. -/
theorem named_eq_nil_of_trivial {ss : List RawText} (h : ∀ s ∈ ss, isTrivial s = true) :
    named ss = [] := by
  rw [named, List.filter_eq_nil_iff.mpr fun s hs => by simp [h s hs], List.map_nil]

/-- Trivial pieces in front name nothing. -/
theorem named_dropWhile (ss : List RawText) : named (ss.dropWhile isTrivial) = named ss := by
  induction ss with
  | nil => rfl
  | cons s ss ih =>
      by_cases h : isTrivial s = true
      · rw [List.dropWhile_cons_of_pos h, ih, named_cons_of_trivial h]
      · rw [List.dropWhile_cons_of_neg h]

/-- Trivial pieces at the end name nothing. -/
theorem named_trimEnd (ss : List RawText) : named (trimEnd ss) = named ss := by
  have h := named_dropWhile ss.reverse
  rw [named, named, List.filter_reverse, List.map_reverse] at h
  rw [named, named, trimEnd, List.filter_reverse, List.map_reverse, h, List.reverse_reverse]

theorem mem_of_mem_trimEnd {ss : List RawText} {s : RawText} (h : s ∈ trimEnd ss) :
    s ∈ ss := by
  rw [trimEnd, List.mem_reverse] at h
  exact List.mem_reverse.mp (List.dropWhile_sublist _ |>.subset h)

/-- Trimming at the end stops at a piece that names something. -/
theorem trimEnd_cons_of_not_trivial {s : RawText} (h : isTrivial s = false)
    (ss : List RawText) : trimEnd (s :: ss) = s :: trimEnd ss := by
  rw [trimEnd, trimEnd, List.reverse_cons, List.dropWhile_append]
  split
  · next he => simp_all
  · simp

/-- Trimming at the end leaves a first piece that names something. -/
theorem not_trivial_of_mem_head?_trimEnd {ss : List RawText}
    (h : ∀ s ∈ ss.head?, isTrivial s = false) : ∀ s ∈ (trimEnd ss).head?, isTrivial s = false := by
  cases ss with
  | nil => simp [trimEnd]
  | cons s ss =>
      have hs : isTrivial s = false := h s rfl
      rw [trimEnd_cons_of_not_trivial hs]
      simpa using hs

/-- Trimming at the end takes a trivial first piece only together with all others. -/
theorem trimEnd_cons_of_trivial {s : RawText} (h : isTrivial s = true)
    (ss : List RawText) :
    trimEnd (s :: ss) = if trimEnd ss = [] then [] else s :: trimEnd ss := by
  rw [trimEnd, trimEnd, List.reverse_cons, List.dropWhile_append]
  split
  · next he => simp_all
  · next he => simp_all

/-- The pieces of joined pieces name what these name. -/
theorem named_segments_joined {ss : List RawText} (h : ∀ s ∈ ss, slash ∉ s) :
    named (segments (joined ss)) = named ss := by
  by_cases hne : ss = []
  · subst hne
    rfl
  · rw [segments_joined hne h]

/-- The ways in which a spelling can start, and its body in each. -/
theorem head_cases (bs : RawText) :
    (head bs = [] ∧ body bs = segments bs) ∨
      (∃ ds, bs = slash :: ds ∧ head bs = [slash] ∧ body bs = segments ds) ∨
      (bs = [dot] ∧ head bs = [dot] ∧ body bs = [[]]) ∨
      (∃ ds, bs = dot :: slash :: ds ∧ head bs = [dot] ∧ body bs = [] :: segments ds) := by
  have hjoined := joined_segments bs
  cases hs : segments bs with
  | nil => exact absurd hs (segments_ne_nil bs)
  | cons s others =>
      rw [hs] at hjoined
      have hhead : head bs = startOf (s :: others) := congrArg startOf hs
      rw [startOf] at hhead
      by_cases hdot : s = [dot]
      · subst hdot
        rw [if_pos rfl] at hhead
        cases others with
        | nil =>
            obtain rfl : bs = [dot] := hjoined.symm
            exact .inr (.inr (.inl ⟨rfl, hhead, rfl⟩))
        | cons t more =>
            obtain rfl : bs = dot :: slash :: joined (t :: more) := hjoined.symm
            refine .inr (.inr (.inr ⟨_, rfl, hhead, ?_⟩))
            rw [body, hhead]
            exact segments_slash_cons _
      · rw [if_neg hdot] at hhead
        by_cases hroot : s = [] ∧ others ≠ []
        · rw [if_pos hroot] at hhead
          rw [hroot.1, joined_cons hroot.2, List.nil_append] at hjoined
          refine .inr (.inl ⟨_, hjoined.symm, hhead, ?_⟩)
          rw [body, hhead, ← hjoined]
          rfl
        · rw [if_neg hroot] at hhead
          exact .inl ⟨hhead, by rw [body, hhead, List.length_nil, List.drop_zero, hs]⟩

/-- The pieces behind the head name what all pieces name. -/
theorem named_body (bs : RawText) : named (body bs) = named (segments bs) := by
  rcases head_cases bs with ⟨-, hbody⟩ | ⟨ds, rfl, -, hbody⟩ | ⟨rfl, -, hbody⟩ | ⟨ds, rfl, -, hbody⟩
  · rw [hbody]
  · rw [hbody, segments_slash_cons, named_cons_of_trivial isTrivial_nil]
  · rw [hbody]
    rfl
  · rw [hbody, segments_dot_slash, named_cons_of_trivial isTrivial_nil,
      named_cons_of_trivial isTrivial_dot]

theorem head_slash_cons (bs : RawText) : head (slash :: bs) = [slash] := by
  rw [head, segments_slash_cons, startOf, if_neg (by simp), if_pos ⟨rfl, segments_ne_nil bs⟩]

theorem slash_ne_dot : slash ≠ dot := by decide

theorem headComponents_of_head_nil {bs : RawText} (h : head bs = []) : headComponents bs = [] := by
  rw [headComponents, h, if_neg (by simp), if_neg (by simp)]

theorem headComponents_of_head_slash {bs : RawText} (h : head bs = [slash]) :
    headComponents bs = [.root] := by
  rw [headComponents, if_pos h]

theorem headComponents_of_head_dot {bs : RawText} (h : head bs = [dot]) :
    headComponents bs = [.here] := by
  rw [headComponents, h, if_neg (by simp [slash_ne_dot.symm]), if_pos rfl]

/-- **The meaning of a path**, read off its pieces. -/
theorem components_eq (p : Path) :
    p.components = headComponents p.bytes ++ named (segments p.bytes) := by
  rw [components, ← named_body]
  rfl

/-- A spelling without a head starts with a piece that names something, or is empty. -/
theorem not_trivial_of_startOf_eq_nil {s t : RawText} {ss : List RawText}
    (h : startOf (s :: t :: ss) = []) : isTrivial s = false := by
  by_contra hs
  rw [Bool.not_eq_false, isTrivial, Bool.or_eq_true, beq_iff_eq, beq_iff_eq] at hs
  rcases hs with rfl | rfl <;> simp [startOf] at h

/-- A path starts with nothing special, at the root, or with a dot. -/
theorem startOf_cases (ss : List RawText) :
    startOf ss = [] ∨ startOf ss = [slash] ∨ startOf ss = [dot] := by
  cases ss with
  | nil => exact Or.inl rfl
  | cons s ss =>
      rw [startOf]
      split_ifs <;> simp

/-- Behind a first piece with others behind it, these do not matter for the start. -/
theorem startOf_append {ss ts us : List RawText} (hss : ss ≠ []) (hts : ts ≠ [])
    (hus : us ≠ []) : startOf (ss ++ ts) = startOf (ss ++ us) := by
  cases ss with
  | nil => exact absurd rfl hss
  | cons s ss => simp [startOf, hts, hus]

/-- A piece that names something says nothing about the start. -/
theorem startOf_cons_of_not_trivial {s : RawText} (h : isTrivial s = false)
    (ss : List RawText) : startOf (s :: ss) = [] := by
  rw [isTrivial, Bool.or_eq_false_iff, beq_eq_false_iff_ne, beq_eq_false_iff_ne] at h
  simp [startOf, h.1, h.2]

/-- Only the empty spelling means nothing. -/
theorem components_ne_nil {p : Path} (h : p.bytes ≠ []) : p.components ≠ [] := by
  intro he
  rw [components_eq, List.append_eq_nil_iff] at he
  obtain ⟨hhead, hnamed⟩ := he
  -- A path that starts somewhere special has a component for that, so this one does not.
  have hstart : startOf (segments p.bytes) = [] := by
    rcases startOf_cases (segments p.bytes) with hs | hs | hs
    · exact hs
    · rw [headComponents_of_head_slash hs] at hhead
      cases hhead
    · rw [headComponents_of_head_dot hs] at hhead
      cases hhead
  cases hs : segments p.bytes with
  | nil => exact segments_ne_nil _ hs
  | cons s ss =>
      have htext := joined_segments p.bytes
      rw [hs] at hstart hnamed htext
      cases ss with
      | nil =>
          have hne : s ≠ [] := by
            rintro rfl
            exact h htext.symm
          by_cases hd : s = [dot]
          · subst hd
            simp [startOf] at hstart
          · rw [named_cons_of_not_trivial (by simp [isTrivial, hne, hd])] at hnamed
            simp at hnamed
      | cons t ss =>
          rw [named_cons_of_not_trivial (not_trivial_of_startOf_eq_nil hstart)] at hnamed
          simp at hnamed

theorem components_of_bytes_eq_nil {p : Path} (h : p.bytes = []) : p.components = [] := by
  rw [components_eq, h]
  rfl

/-- A text that starts with no head means what its pieces name. -/
theorem components_ofList_joined {ss : List RawText} (h : ∀ s ∈ ss, slash ∉ s)
    (hstart : ∀ s ∈ ss.head?, isTrivial s = false) :
    (⟨joined ss⟩ : Path).components = named ss := by
  rw [components_eq, named_segments_joined h]
  suffices hhead : head (joined ss) = [] by
    rw [headComponents_of_head_nil hhead, List.nil_append]
  cases ss with
  | nil => rfl
  | cons s ss =>
      rw [head, segments_joined (by simp) h, startOf_cons_of_not_trivial (hstart s rfl)]

/-! ### Names -/

/-- **A name**, as a directory may hold it: a component of its own, and nothing else. -/
structure IsName (name : RawText) : Prop where
  /-- It is not empty. -/
  ne_empty : name ≠ []
  /-- It is not the directory itself. -/
  ne_here : name ≠ [dot]
  /-- It is not the directory above. -/
  ne_up : name ≠ [dot, dot]
  /-- It has no slash. -/
  no_slash : slash ∉ name

instance (name : RawText) : Decidable (IsName name) :=
  decidable_of_iff (name ≠ [] ∧ name ≠ [dot] ∧ name ≠ [dot, dot] ∧ slash ∉ name)
    ⟨fun ⟨h₁, h₂, h₃, h₄⟩ => ⟨h₁, h₂, h₃, h₄⟩, fun ⟨h₁, h₂, h₃, h₄⟩ => ⟨h₁, h₂, h₃, h₄⟩⟩

namespace IsName

variable {name : RawText} (h : IsName name)

include h

theorem not_trivial : isTrivial name = false := by
  rw [isTrivial, Bool.or_eq_false_iff, beq_eq_false_iff_ne, beq_eq_false_iff_ne]
  exact ⟨h.ne_empty, h.ne_here⟩

theorem named_eq : named [name] = [.name name] := by
  rw [named_cons_of_not_trivial h.not_trivial, componentOf, if_neg h.ne_up, named_nil]

theorem head?_ne_slash : name.head? ≠ some slash := by
  intro he
  exact h.no_slash (List.mem_of_head? he)

/-- Spelled alone, it means itself. -/
theorem components : (⟨name⟩ : Path).components = [.name name] := by
  have hs : segments name = [name] := segments_of_notMem h.no_slash
  rw [components_eq, headComponents, head, hs,
    startOf_cons_of_not_trivial h.not_trivial, h.named_eq]
  rfl

end IsName

/-! ### Joining, and back -/

/-- A joined path is spelled with a slash before the name, unless the name starts at the root, and
what stands before the slash has the head and the components of the directory. -/
theorem exists_join {dir : Path} {name : RawText} (hdir : dir.bytes ≠ [])
    (hname : name.head? ≠ some slash) :
    ∃ bs, (dir.join name).bytes = bs ++ slash :: name ∧
      head (bs ++ slash :: name) = head dir.bytes ∧
      named (segments bs) = named (segments dir.bytes) := by
  rw [join, if_neg hname]
  split
  · next hslash =>
      obtain ⟨bs, hbs⟩ := List.getLast?_eq_some_iff.mp (hslash.resolve_left hdir)
      refine ⟨bs, by rw [hbs, List.append_assoc, List.singleton_append], ?_, ?_⟩
      · rw [head, head, hbs, segments_append_slash, segments_append_slash]
        exact startOf_append (segments_ne_nil _) (segments_ne_nil _) (segments_ne_nil _)
      · rw [hbs, segments_append_slash, named_append]
        simp [named]
  · refine ⟨dir.bytes, rfl, ?_, rfl⟩
    rw [head, head, segments_append_slash]
    cases hs : segments dir.bytes with
    | nil => exact absurd hs (segments_ne_nil _)
    | cons s ss =>
        -- Alone, an empty piece is the empty spelling, which a slash behind it would make the root.
        have hnil : ss = [] → s ≠ [] := by
          rintro rfl rfl
          have htext := joined_segments dir.bytes
          rw [hs] at htext
          exact hdir htext.symm
        by_cases hss : ss = []
        · simp [startOf, hss, hnil hss]
        · simp [startOf, hss]

/-- **Joining appends what the name means**, dots in front of it aside, unless it starts at the
root. -/
theorem components_join_of_relative {dir : Path} {name : RawText} (hdir : dir.bytes ≠ [])
    (hname : name.head? ≠ some slash) :
    (dir.join name).components = dir.components ++ named (segments name) := by
  obtain ⟨bs, hbytes, hhead, hnamed⟩ := exists_join hdir hname
  rw [components_eq, components_eq, hbytes, headComponents, hhead, segments_append_slash,
    named_append, hnamed, List.append_assoc]
  rfl

/-- **Joining appends a component.** -/
theorem components_join {dir : Path} {name : RawText} (hdir : dir.bytes ≠ [])
    (hname : IsName name) : (dir.join name).components = dir.components ++ [.name name] := by
  rw [components_join_of_relative hdir hname.head?_ne_slash, segments_of_notMem hname.no_slash,
    hname.named_eq]

theorem bytes_eq_nil_iff {p : Path} : p.bytes = [] ↔ p.components = [] :=
  ⟨components_of_bytes_eq_nil, fun h => by_contra fun hne => components_ne_nil hne h⟩

/-- **Joining does not look at the spelling** of the directory. -/
theorem components_join_congr {dir dir' : Path} (h : dir.components = dir'.components)
    (name : RawText) : (dir.join name).components = (dir'.join name).components := by
  by_cases hname : name.head? = some slash
  · rw [join, join, if_pos (by simpa using hname), if_pos (by simpa using hname)]
  by_cases hdir : dir.bytes = []
  · have hdir' : dir'.bytes = [] := by rw [bytes_eq_nil_iff, ← h, ← bytes_eq_nil_iff, hdir]
    rw [join, join, hdir, hdir']
  · have hdir' : dir'.bytes ≠ [] := by rwa [ne_eq, bytes_eq_nil_iff, ← h, ← bytes_eq_nil_iff]
    rw [components_join_of_relative hdir hname, components_join_of_relative hdir' hname, h]

theorem join_bytes_ne_nil (dir : Path) {name : RawText} (hname : IsName name) :
    (dir.join name).bytes ≠ [] := by
  intro h
  rw [join, if_neg hname.head?_ne_slash] at h
  split at h
  · exact hname.ne_empty (List.append_eq_nil_iff.mp h).2
  · cases (List.append_eq_nil_iff.mp h).2

/-- The root slash before joined pieces. -/
theorem components_slash_joined {ss : List RawText} (h : ∀ s ∈ ss, slash ∉ s) :
    (⟨slash :: joined ss⟩ : Path).components = .root :: named ss := by
  rw [components_eq, headComponents_of_head_slash (head_slash_cons _), segments_slash_cons,
    named_cons_of_trivial isTrivial_nil, named_segments_joined h]
  rfl

/-- A leading dot before pieces that are set off from it. -/
theorem components_dot_joined {ss : List RawText} (h : ∀ s ∈ ss, slash ∉ s) :
    (⟨dot :: joined (trimEnd ([] :: ss))⟩ : Path).components =
      .here :: named ss := by
  rw [trimEnd_cons_of_trivial isTrivial_nil, ← named_trimEnd ss]
  have hs : ∀ s ∈ trimEnd ss, slash ∉ s := fun s hs => h s (mem_of_mem_trimEnd hs)
  split
  · next he => rw [he]; rfl
  · next hne =>
      have hsegments : segments (dot :: joined ([] :: trimEnd ss)) = [dot] :: trimEnd ss := by
        rw [joined_cons hne, List.nil_append, segments_dot_slash, segments_joined hne hs]
      rw [components_eq, hsegments, headComponents, head, hsegments,
        named_cons_of_trivial isTrivial_dot]
      rfl

/-- **What a path shares with its parent.**  The parent has the head of the path and the pieces before
the last one that names something; but a dot alone has the empty spelling above it. -/
theorem exists_body_of_parent? {p q : Path} (h : p.parent? = some q) :
    (∃ front n behind, body p.bytes = front ++ n :: behind ∧ isTrivial n = false ∧
      (∀ s ∈ behind, isTrivial s = true) ∧
        q.bytes = head p.bytes ++ joined (trimEnd front)) ∨
      (head p.bytes = [dot] ∧ (∀ s ∈ body p.bytes, isTrivial s = true) ∧
        q.bytes = []) := by
  rw [parent?] at h
  cases hrest : (body p.bytes).reverse.dropWhile isTrivial with
  | nil =>
      rw [hrest] at h
      dsimp only at h
      split_ifs at h with hdot
      obtain rfl := Option.some.inj h
      refine .inr ⟨hdot, fun s hs => ?_, rfl⟩
      exact List.dropWhile_eq_nil_iff.mp hrest s (List.mem_reverse.mpr hs)
  | cons n before =>
      rw [hrest] at h
      obtain rfl := Option.some.inj h
      have hn : isTrivial n = false := by
        have hfirst := List.head?_dropWhile_not isTrivial (body p.bytes).reverse
        rw [hrest] at hfirst
        simpa using hfirst
      have hbody : body p.bytes = before.reverse ++
          n :: ((body p.bytes).reverse.takeWhile isTrivial).reverse := by
        rw [← List.reverse_inj, List.reverse_append, List.reverse_cons, List.reverse_reverse,
          List.reverse_reverse, List.append_assoc, List.singleton_append, ← hrest,
          List.takeWhile_append_dropWhile]
      refine .inl ⟨before.reverse, n, _, hbody, hn, fun s hs => ?_, ?_⟩
      · exact List.mem_takeWhile_imp (List.mem_reverse.mp hs)
      · rw [trimEnd, List.reverse_reverse]

/-- The head of a path and the first pieces of its body mean what they mean within the path. -/
theorem components_of_front {p q : Path} {front behind : List RawText}
    (hbody : body p.bytes = front ++ behind) (hne : behind ≠ [])
    (hq : q.bytes = head p.bytes ++ joined (trimEnd front)) :
    q.components = headComponents p.bytes ++ named front := by
  obtain rfl : q = ⟨head p.bytes ++ joined (trimEnd front)⟩ := congrArg Path.mk hq
  have hslash : ∀ s ∈ front, slash ∉ s := by
    intro s hs
    have hmem : s ∈ body p.bytes := hbody ▸ List.mem_append_left _ hs
    exact notMem_of_mem_segments hmem
  have htrim : ∀ s ∈ trimEnd front, slash ∉ s := fun s hs => hslash s (mem_of_mem_trimEnd hs)
  rcases head_cases p.bytes with ⟨hhead, hsegments⟩ | ⟨ds, -, hhead, -⟩ | ⟨-, hhead, hdot⟩ |
    ⟨ds, -, hhead, hsegments⟩
  · -- Without a head, what is left must not begin with a piece that would read as one.
    rw [hhead, List.nil_append, components_ofList_joined htrim, named_trimEnd, headComponents, hhead]
    · rfl
    · refine not_trivial_of_mem_head?_trimEnd fun s hs => ?_
      obtain ⟨others, rfl⟩ := List.head?_eq_some_iff.mp hs
      obtain ⟨t, more, hmore⟩ :=
        List.exists_cons_of_ne_nil (List.append_ne_nil_of_right_ne_nil others hne)
      rw [head, ← hsegments, hbody, List.cons_append, hmore] at hhead
      exact not_trivial_of_startOf_eq_nil hhead
  · rw [hhead, List.singleton_append, components_slash_joined htrim, named_trimEnd, headComponents,
      hhead]
    rfl
  · -- A dot alone has one piece behind it, which is empty.
    obtain rfl : front = [] := by
      rw [hdot] at hbody
      cases front with
      | nil => rfl
      | cons s front => simp_all
    rw [headComponents, hhead]
    rfl
  · rw [headComponents, hhead]
    cases front with
    | nil => rfl
    | cons s front =>
        obtain rfl : s = [] := by
          rw [hsegments] at hbody
          exact (List.cons.inj hbody).1.symm
        rw [List.singleton_append, named_cons_of_trivial isTrivial_nil,
          components_dot_joined fun t ht => hslash t (List.mem_cons_of_mem _ ht)]
        rfl

/-- **The parent lacks the last component**, which is not the root. -/
theorem exists_components_of_parent? {p q : Path} (h : p.parent? = some q) :
    ∃ c, c ≠ .root ∧ p.components = q.components ++ [c] := by
  rcases exists_body_of_parent? h with ⟨front, n, behind, hbody, hn, hbehind, hq⟩ |
    ⟨hhead, htrivial, hq⟩
  · refine ⟨componentOf n, ?_, ?_⟩
    · rw [componentOf]
      split_ifs <;> simp
    · rw [components_of_front hbody (by simp) hq, components_eq, ← named_body, hbody, named_append,
        named_cons_of_not_trivial hn, named_eq_nil_of_trivial hbehind, List.append_assoc]
  · refine ⟨.here, by simp, ?_⟩
    rw [components_of_bytes_eq_nil hq, components_eq, ← named_body, named_eq_nil_of_trivial htrivial,
      headComponents, hhead]
    rfl

/-- **A path without a parent** is empty or the root directory. -/
theorem parent?_eq_none_iff {p : Path} :
    p.parent? = none ↔ p.components = [] ∨ p.components = [.root] := by
  constructor
  · intro h
    rw [parent?] at h
    cases hrest : (body p.bytes).reverse.dropWhile isTrivial with
    | cons n before => simp [hrest] at h
    | nil =>
        rw [hrest] at h
        dsimp only at h
        split_ifs at h with hdot
        have hnamed : named (body p.bytes) = [] := named_eq_nil_of_trivial fun s hs =>
          List.dropWhile_eq_nil_iff.mp hrest s (List.mem_reverse.mpr hs)
        rw [components_eq, ← named_body, hnamed, headComponents,
          if_neg hdot]
        split_ifs <;> simp
  · intro h
    cases hq : p.parent? with
    | none => rfl
    | some q =>
        obtain ⟨c, hc, hcomponents⟩ := exists_components_of_parent? hq
        rcases h with h | h
        · simp [h] at hcomponents
        · have hlast := congrArg List.getLast? hcomponents
          rw [h, List.getLast?_concat] at hlast
          exact absurd (Option.some.inj hlast).symm hc

/-- The parent of a joined path means the directory. -/
theorem exists_parent_join {dir : Path} {name : RawText} (hdir : dir.bytes ≠ [])
    (hname : IsName name) :
    ∃ q, (dir.join name).parent? = some q ∧ q.components = dir.components := by
  have hjoin := components_join hdir hname
  cases hq : (dir.join name).parent? with
  | none =>
      rw [parent?_eq_none_iff, hjoin] at hq
      have hne : dir.components ≠ [] := components_ne_nil hdir
      rcases hq with hq | hq
      · simp at hq
      · simp [List.append_eq_singleton_iff, hne] at hq
  | some q =>
      obtain ⟨c, -, hcomponents⟩ := exists_components_of_parent? hq
      rw [hjoin] at hcomponents
      exact ⟨q, rfl, (List.append_inj' hcomponents rfl).1.symm⟩

/-- The last component of a joined path is the name. -/
theorem fileName?_join {dir : Path} {name : RawText} (hdir : dir.bytes ≠ [])
    (hname : IsName name) : (dir.join name).fileName? = some name := by
  rw [fileName?, components_join hdir hname, List.getLast?_concat]

/-! ### A leading dot -/

/-- The components without a leading dot, which stays only where it stands alone. -/
def undotted : List Component → List Component
  | .here :: c :: rest => c :: rest
  | cs => cs

/-- Pieces name no leading dot. -/
theorem here_notMem_named (ss : List RawText) : .here ∉ named ss := by
  intro h
  obtain ⟨s, -, hs⟩ := List.mem_map.mp h
  rw [componentOf] at hs
  split at hs <;> simp at hs

/-- A path starts with a dot exactly if its spelling does. -/
theorem head?_components_eq_here_iff (p : Path) :
    p.components.head? = some .here ↔ head p.bytes = [dot] := by
  have hnamed : (named (segments p.bytes)).head? ≠ some .here := fun h =>
    here_notMem_named _ (List.mem_of_head? h)
  rw [components_eq, headComponents]
  split_ifs with h₁ h₂
  · simp [h₁, slash_ne_dot]
  · simp [h₂]
  · simpa [h₂] using hnamed

@[simp] theorem undotted_here : undotted [.here] = [.here] := rfl

@[simp] theorem undotted_here_cons (c : Component) (cs : List Component) :
    undotted (.here :: c :: cs) = c :: cs := rfl

theorem undotted_cons_of_ne {c : Component} (h : c ≠ .here) (cs : List Component) :
    undotted (c :: cs) = c :: cs := by
  unfold undotted
  split <;> simp_all

/-- A path is the current directory, or starts with a dot and goes on, or has no leading dot. -/
theorem components_cases {p : Path} (h : p.bytes ≠ []) :
    p.components = [.here] ∨
      (∃ c cs, p.components = .here :: c :: cs ∧ c ≠ .here) ∨
      (∃ c cs, p.components = c :: cs ∧ c ≠ .here) := by
  cases hc : p.components with
  | nil => exact absurd hc (components_ne_nil h)
  | cons c cs =>
      by_cases hdot : c = .here
      · subst hdot
        have hhead : head p.bytes = [dot] :=
          (head?_components_eq_here_iff p).mp (by rw [hc]; rfl)
        rw [components_eq, headComponents, hhead] at hc
        have hcs : named (segments p.bytes) = cs := (List.cons.inj hc).2
        cases cs with
        | nil => exact Or.inl rfl
        | cons d cs =>
            refine Or.inr (Or.inl ⟨d, cs, rfl, ?_⟩)
            rintro rfl
            exact here_notMem_named _ (hcs ▸ List.mem_cons_self)
      · exact Or.inr (Or.inr ⟨c, cs, rfl, hdot⟩)

/-- **Behind a leading dot** stand the other components. -/
theorem exists_behindDot {p : Path} {cs : List Component} (h : p.components = .here :: cs) :
    ∃ q, p.behindDot? = some q ∧ q.components = cs := by
  have hhead : head p.bytes = [dot] :=
    (head?_components_eq_here_iff p).mp (by rw [h]; rfl)
  have hcs : named (segments p.bytes) = cs := by
    rw [components_eq, headComponents, hhead] at h
    exact (List.cons.inj h).2
  refine ⟨⟨joined (trimEnd ((body p.bytes).dropWhile isTrivial))⟩,
    by rw [behindDot?, if_pos hhead], ?_⟩
  rw [components_ofList_joined, named_trimEnd, named_dropWhile, named_body, hcs]
  · intro s hs
    have hbody := (List.dropWhile_sublist isTrivial).subset (mem_of_mem_trimEnd hs)
    exact notMem_of_mem_segments hbody
  · refine not_trivial_of_mem_head?_trimEnd fun s hs => ?_
    have hfirst := List.head?_dropWhile_not isTrivial (body p.bytes)
    rw [Option.mem_def.mp hs] at hfirst
    exact hfirst

/-- Where there is no leading dot, there is nothing to strip. -/
theorem behindDot?_eq_none {p : Path} (h : p.components.head? ≠ some .here) :
    p.behindDot? = none := by
  rw [ne_eq, head?_components_eq_here_iff] at h
  rw [behindDot?, if_neg h]

end Path

/-! ### The order -/

namespace Component

/-- The bytes of a name; the other components have none. -/
def bytes : Component → RawText
  | .name bs => bs
  | _ => []

/-- Components are compared by kind first and by bytes second. -/
theorem order_eq_compareLex :
    order = compareLex (compareOn rank) (compareOn bytes) := by
  funext c d
  cases c <;> cases d <;> simp [order, compareLex, compareOn, rank, bytes] <;> rfl

instance : Std.TransCmp order :=
  order_eq_compareLex ▸ inferInstanceAs (Std.TransCmp (compareLex (compareOn rank) (compareOn bytes)))

instance : Std.LawfulEqCmp order where
  compare_self {c} := by
    rw [order_eq_compareLex]
    exact Std.ReflCmp.compare_self
  eq_of_compare {c d} h := by
    rw [order_eq_compareLex, compareLex_eq_eq, compareOn, compareOn,
      Std.LawfulEqOrd.compare_eq_iff_eq, Std.LawfulEqOrd.compare_eq_iff_eq] at h
    cases c <;> cases d <;> simp_all [rank, bytes]

end Component

namespace Path

/-- Lists of components are compared lexicographically. -/
theorem orderComponents_eq_compareLex : orderComponents = List.compareLex Component.order := by
  funext cs ds
  induction cs generalizing ds with
  | nil => cases ds <;> rfl
  | cons c cs ih =>
      cases ds with
      | nil => rfl
      | cons d ds =>
          rw [orderComponents, List.compareLex_cons_cons, ih]

/-- **The order of paths** is that of their components. -/
theorem order_eq_compareLex (p q : Path) :
    p.order q = List.compareLex Component.order p.components q.components := by
  rw [order, orderComponents_eq_compareLex]

/-- Paths compare as equal exactly if they mean the same. -/
theorem order_eq_eq_iff {p q : Path} : p.order q = .eq ↔ p.components = q.components := by
  rw [order_eq_compareLex, Std.LawfulEqCmp.compare_eq_iff_eq]

/-- Seen from the other side, the order is reversed. -/
theorem order_eq_gt_iff {p q : Path} : p.order q = .gt ↔ q.order p = .lt := by
  rw [order_eq_compareLex, order_eq_compareLex, Std.OrientedCmp.gt_iff_lt]

theorem order_lt_trans {p q r : Path} (h₁ : p.order q = .lt) (h₂ : q.order r = .lt) :
    p.order r = .lt := by
  rw [order_eq_compareLex] at h₁ h₂ ⊢
  exact Std.TransCmp.lt_trans h₁ h₂

/-- What comes before a path does not depend on how it is spelled. -/
theorem order_congr_left {p q : Path} (h : p.components = q.components) (r : Path) :
    p.order r = q.order r := by
  rw [order, order, h]

theorem same_iff {p q : Path} : p.same q = true ↔ p.components = q.components := by
  rw [same, beq_iff_eq]

end Path

end LintSuite
