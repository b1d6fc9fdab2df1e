import LintSuite.Proofs.Walk
import LintSuite.Proofs.Ancestors
import Mathlib

/-!
# Where paths lead

A lookup goes from directory to directory, one name after another, and spends a link of its budget on
each link that it follows.  `Passes` says where some names lead and what is left of the budget.  It
composes (`passes_append_iff`), which the lookup itself does not show, as it treats the last name in a
way of its own; and a path leads to a node exactly if its names pass to a location that holds the node
(`find_eq_ok_iff`).

A tree may grow without a path losing its way: what led to a node leads to the same location, and what
led to a free name leads there once it is taken (`find_of_grows`, `find_of_free`).

The names of a path are those of what lies above it and then its own (`exists_spoken_of_above`), so its
way leads over what lies above it (`exists_passes_of_above`), and nowhere from an empty directory
(`find_ne_ok_of_empty`).

### Main statements

* `find_eq_ok_iff`: a path leads to a node exactly if its names pass to a location that holds it.
* `find_of_grows`, `find_of_free`: what becomes of this as the tree grows.
* `exists_passes_of_above`: the way of a path leads over what lies above it.

### Design decisions

**Purposes are told apart at the end.**  A lookup may follow a link in the last place or stop at it,
and may ask for a file to be written where nothing is.  All of it happens at the last name.  `Passes`
knows none of these purposes, so that the way up to the last name is one notion for all of them.

**The budget is an index.**  Links that may still be followed are counted down, and a path that uses
them up leads nowhere.  `Passes` carries what is left, which makes it composable; where a statement is
about two trees, the same budget serves for both.

### What is load-bearing

`lookFrom_of_passes` and `passes_of_lookFrom`.  They are the only proofs that go by the recursion of
the lookup, over all cases of `LooksOn`; whatever else is known of lookups is known of `Passes`.
-/

namespace LintSuite.Host

open LintSuite RawText

/-! ### Passing names -/

/-- **A directory that lets pass.** -/
def MayPass (root : Node) (here : Location) : Prop :=
  ∃ access entries, root.get? here = some (.dir access entries) ∧ access.execute = true

/-- **A name that leads down** from a directory, and that is not too long. -/
structure LeadsDown (name : RawText) : Prop where
  /-- It is not empty. -/
  ne_empty : name ≠ []
  /-- It is not the directory itself. -/
  ne_here : name ≠ [dot]
  /-- It is not the directory above. -/
  ne_up : name ≠ [dot, dot]
  /-- It is not too long. -/
  size : name.length ≤ nameLimit

/-- A node that is no link. -/
def Node.IsNoLink (node : Node) : Prop :=
  ∀ target, node ≠ .link target

/-- **Passing names** from a location, with a number of links allowed: where they lead, and how many
links are still allowed there. -/
inductive Passes (root : Node) : Nat → Location → List RawText → Nat → Location → Prop
  /-- No names are left. -/
  | done (links : Nat) (here : Location) : Passes root links here [] links here
  /-- A dot, or nothing, stays where it is. -/
  | stay {links left : Nat} {here there : Location} {name : RawText} {rest : List RawText}
      (hpass : MayPass root here) (hname : name = [] ∨ name = [dot])
      (h : Passes root links here rest left there) :
      Passes root links here (name :: rest) left there
  /-- A double dot leads up. -/
  | up {links left : Nat} {here there : Location} {rest : List RawText}
      (hpass : MayPass root here) (h : Passes root links here.dropLast rest left there) :
      Passes root links here ([dot, dot] :: rest) left there
  /-- A link is followed. -/
  | follow {links left : Nat} {here there : Location} {name target : RawText} {rest : List RawText}
      (hpass : MayPass root here) (hname : LeadsDown name)
      (hlink : root.get? (here ++ [name]) = some (.link target))
      (h : Passes root links (linkStart here target) (namesOf target ++ rest) left there) :
      Passes root (links + 1) here (name :: rest) left there
  /-- Any other name leads down. -/
  | down {links left : Nat} {here there : Location} {name : RawText} {node : Node}
      {rest : List RawText} (hpass : MayPass root here) (hname : LeadsDown name)
      (hnode : root.get? (here ++ [name]) = some node) (hnoLink : node.IsNoLink)
      (h : Passes root links (here ++ [name]) rest left there) :
      Passes root links here (name :: rest) left there

variable {root root' : Node} {purpose : Purpose} {links left : Nat} {here there : Location}

/-- **Names are passed one part after the other.** -/
theorem passes_append_iff {ns ms : List RawText} :
    Passes root links here (ns ++ ms) left there ↔
      ∃ between mid, Passes root links here ns between mid ∧
        Passes root between mid ms left there := by
  constructor
  · intro h
    generalize hnames : ns ++ ms = names at h
    induction h generalizing ns with
    | done links here =>
        obtain ⟨rfl, rfl⟩ := List.append_eq_nil_iff.mp hnames
        exact ⟨links, here, .done .., .done ..⟩
    | stay hpass hname h ih =>
        cases ns with
        | nil =>
            subst hnames
            exact ⟨_, _, .done .., .stay hpass hname h⟩
        | cons n ns =>
            obtain ⟨rfl, hrest⟩ := List.cons.inj hnames
            obtain ⟨between, mid, h₁, h₂⟩ := ih hrest
            exact ⟨between, mid, .stay hpass hname h₁, h₂⟩
    | up hpass h ih =>
        cases ns with
        | nil =>
            subst hnames
            exact ⟨_, _, .done .., .up hpass h⟩
        | cons n ns =>
            obtain ⟨rfl, hrest⟩ := List.cons.inj hnames
            obtain ⟨between, mid, h₁, h₂⟩ := ih hrest
            exact ⟨between, mid, .up hpass h₁, h₂⟩
    | @follow _ _ _ _ _ target rest hpass hname hlink h ih =>
        cases ns with
        | nil =>
            subst hnames
            exact ⟨_, _, .done .., .follow hpass hname hlink h⟩
        | cons n ns =>
            obtain ⟨rfl, hrest⟩ := List.cons.inj hnames
            have hmore : (namesOf target ++ ns) ++ ms = namesOf target ++ rest := by
              rw [List.append_assoc]
              exact congrArg _ hrest
            obtain ⟨between, mid, h₁, h₂⟩ := ih hmore
            exact ⟨between, mid, .follow hpass hname hlink h₁, h₂⟩
    | down hpass hname hnode hnoLink h ih =>
        cases ns with
        | nil =>
            subst hnames
            exact ⟨_, _, .done .., .down hpass hname hnode hnoLink h⟩
        | cons n ns =>
            obtain ⟨rfl, hrest⟩ := List.cons.inj hnames
            obtain ⟨between, mid, h₁, h₂⟩ := ih hrest
            exact ⟨between, mid, .down hpass hname hnode hnoLink h₁, h₂⟩
  · rintro ⟨between, mid, h₁, h₂⟩
    induction h₁ with
    | done => exact h₂
    | stay hpass hname _ ih => exact .stay hpass hname (ih h₂)
    | up hpass _ ih => exact .up hpass (ih h₂)
    | follow hpass hname hlink _ ih =>
        have hmore := ih h₂
        rw [List.append_assoc] at hmore
        exact .follow hpass hname hlink hmore
    | down hpass hname hnode hnoLink _ ih => exact .down hpass hname hnode hnoLink (ih h₂)

/-- Whoever passes a name is in a directory that lets pass. -/
theorem Passes.mayPass {names : List RawText} (h : Passes root links here names left there)
    (hne : names ≠ []) : MayPass root here := by
  cases h with
  | done => exact absurd rfl hne
  | stay hpass => exact hpass
  | up hpass => exact hpass
  | follow hpass => exact hpass
  | down hpass => exact hpass

/-- What stays passes no link and no directory. -/
theorem Passes.of_trivial {name : RawText} {rest : List RawText} (hname : name = [] ∨ name = [dot])
    (h : Passes root links here (name :: rest) left there) :
    MayPass root here ∧ Passes root links here rest left there := by
  generalize hnames : name :: rest = names at h
  cases h with
  | done => simp at hnames
  | stay hpass _ h =>
      obtain ⟨-, rfl⟩ := List.cons.inj hnames
      exact ⟨hpass, h⟩
  | up =>
      obtain ⟨rfl, -⟩ := List.cons.inj hnames
      simp at hname
  | follow _ hdown =>
      obtain ⟨rfl, -⟩ := List.cons.inj hnames
      exact absurd hname (not_or.mpr ⟨hdown.ne_empty, hdown.ne_here⟩)
  | down _ hdown =>
      obtain ⟨rfl, -⟩ := List.cons.inj hnames
      exact absurd hname (not_or.mpr ⟨hdown.ne_empty, hdown.ne_here⟩)

/-- Where a slash at the end is passed, there is a directory. -/
theorem Passes.mayPass_of_slash {names : List RawText}
    (h : Passes root links here (names ++ [[]]) left there) : MayPass root there := by
  obtain ⟨between, mid, -, h⟩ := passes_append_iff.mp h
  obtain ⟨hpass, hdone⟩ := h.of_trivial (.inl rfl)
  cases hdone
  exact hpass

theorem get?_concat {access : Access} {entries : Entries}
    (h : root.get? here = some (.dir access entries)) (name : RawText) :
    root.get? (here ++ [name]) = entries.find? name := by
  rw [Node.get?_append h, Node.get?_singleton]

/-- Whatever holds a node is a directory. -/
theorem exists_dir_of_get?_append {location more : Location} {node : Node} (hne : more ≠ [])
    (h : root.get? (location ++ more) = some node) :
    ∃ access entries, root.get? location = some (.dir access entries) := by
  induction location generalizing root with
  | nil =>
      obtain ⟨name, rest, rfl⟩ := List.exists_cons_of_ne_nil hne
      obtain ⟨access, entries, -, rfl, -⟩ := Node.exists_of_get?_cons h
      exact ⟨access, entries, rfl⟩
  | cons name rest ih =>
      obtain ⟨access, entries, below, rfl, hfind, hrest⟩ := Node.exists_of_get?_cons h
      obtain ⟨access', entries', hdir⟩ := ih hrest
      exact ⟨access', entries', by rw [Node.get?_cons, hfind, Option.bind_some, hdir]⟩

/-- Whoever passes any other name finds something there. -/
theorem Passes.exists_of_name {name : RawText} {rest : List RawText}
    (h : Passes root links here (name :: rest) left there) (hstay : ¬(name = [] ∨ name = [dot]))
    (hup : name ≠ [dot, dot]) : ∃ node, root.get? (here ++ [name]) = some node := by
  generalize hnames : name :: rest = names at h
  cases h with
  | done => simp at hnames
  | stay _ hname =>
      obtain ⟨rfl, -⟩ := List.cons.inj hnames
      exact absurd hname hstay
  | up => exact absurd (List.cons.inj hnames).1 hup
  | follow _ _ hlink =>
      obtain ⟨rfl, -⟩ := List.cons.inj hnames
      exact ⟨_, hlink⟩
  | down _ _ hnode =>
      obtain ⟨rfl, -⟩ := List.cons.inj hnames
      exact ⟨_, hnode⟩

/-- Nothing that names something is passed in an empty directory, but a step upwards. -/
theorem not_passes_of_empty {access : Access} (hdir : root.get? here = some (.dir access .none))
    {ss : List RawText} (hne : Path.named ss ≠ []) (hup : .up ∉ Path.named ss)
    (more : List RawText) :
    ¬ Passes root links here (ss.filter (· != []) ++ more) left there := by
  intro h
  induction ss with
  | nil => exact hne rfl
  | cons s ss ih =>
      by_cases hs : Path.isTrivial s = true
      · rw [Path.named_cons_of_trivial hs] at hne hup
        refine ih hne hup ?_
        by_cases hnil : s = []
        · simpa [hnil] using h
        · have hdot : s = [dot] := by simpa [Path.isTrivial, hnil] using hs
          rw [hdot] at h
          exact (Passes.of_trivial (.inr rfl) h).2
      · rw [Bool.not_eq_true] at hs
        rw [Path.named_cons_of_not_trivial hs] at hup
        have hne' : s ≠ [] ∧ s ≠ [dot] := by simpa [Path.isTrivial] using hs
        rw [List.filter_cons_of_pos (by simpa using hne'.1)] at h
        have hnotUp : s ≠ [dot, dot] := by
          rintro rfl
          exact hup (List.mem_cons.mpr (.inl rfl))
        obtain ⟨node, hnode⟩ := Passes.exists_of_name h (not_or.mpr hne') hnotUp
        rw [get?_concat hdir, Entries.find?] at hnode
        simp at hnode

/-! ### The lookup, name by name -/

/-- A lookup that succeeds passes the directory where it is. -/
theorem mayPass_of_lookFrom {name : RawText} {rest : List RawText} {place : Place}
    (h : lookFrom root purpose links here (name :: rest) = .ok place) : MayPass root here := by
  rw [lookFrom] at h
  split at h
  · next access entries hget =>
      split at h
      · simp at h
      · next hexecute => exact ⟨access, entries, hget, by simpa using hexecute⟩
  · simp at h
  · simp at h

theorem lookFrom_stay {name : RawText} {rest : List RawText} (hpass : MayPass root here)
    (hname : name = [] ∨ name = [dot]) :
    lookFrom root purpose links here (name :: rest) = lookFrom root purpose links here rest := by
  obtain ⟨access, entries, hget, hexecute⟩ := hpass
  rw [lookFrom]
  simp only [hget]
  rw [if_neg (by simp [hexecute]), if_pos (by simpa using hname)]

theorem lookFrom_up {rest : List RawText} (hpass : MayPass root here) :
    lookFrom root purpose links here ([dot, dot] :: rest) =
      lookFrom root purpose links here.dropLast rest := by
  obtain ⟨access, entries, hget, hexecute⟩ := hpass
  rw [lookFrom]
  simp only [hget]
  rw [if_neg (by simp [hexecute]), if_neg (by simp), if_pos trivial]

/-- At a name that leads down, the lookup goes by what lies there. -/
theorem lookFrom_down {name : RawText} {rest : List RawText} (hpass : MayPass root here)
    (hname : LeadsDown name) :
    lookFrom root purpose links here (name :: rest) =
      if purpose = .output ∧ rest = [[]] then .error .isDirectory
      else match root.get? (here ++ [name]) with
        | none => if rest.isEmpty then .ok (.free here name) else .error .notFound
        | some (.link target) =>
          if rest.isEmpty && purpose = .entry then .ok (.found (here ++ [name]) (.link target))
          else match links with
            | 0 => .error .linkLoop
            | fewer + 1 =>
              lookFrom root purpose fewer (linkStart here target) (namesOf target ++ rest)
        | some _ => lookFrom root purpose links (here ++ [name]) rest := by
  obtain ⟨access, entries, hget, hexecute⟩ := hpass
  rw [get?_concat hget, lookFrom]
  simp only [hget]
  rw [if_neg (by simp [hexecute]), if_neg (by simp [hname.ne_empty, hname.ne_here]),
    if_neg hname.ne_up]
  simp only [Bool.and_eq_true, decide_eq_true_eq]
  exact congrArg (ite (purpose = .output ∧ rest = [[]]) _) (if_neg (not_lt.mpr hname.size))

/-- What is no link is gone down to. -/
theorem lookFrom_node {name : RawText} {rest : List RawText} {node : Node}
    (hpass : MayPass root here) (hname : LeadsDown name)
    (hslash : ¬(purpose = .output ∧ rest = [[]]))
    (hnode : root.get? (here ++ [name]) = some node) (hnoLink : node.IsNoLink) :
    lookFrom root purpose links here (name :: rest) =
      lookFrom root purpose links (here ++ [name]) rest := by
  rw [lookFrom_down hpass hname, if_neg hslash, hnode]
  cases node with
  | link target => exact absurd rfl (hnoLink target)
  | file access content => rfl
  | device d => rfl
  | dir access entries => rfl

/-- A link is followed, unless it is what is asked for. -/
theorem lookFrom_link {name target : RawText} {rest : List RawText}
    (hpass : MayPass root here) (hname : LeadsDown name)
    (hslash : ¬(purpose = .output ∧ rest = [[]]))
    (hlink : root.get? (here ++ [name]) = some (.link target))
    (hitself : ¬(rest = [] ∧ purpose = .entry)) :
    lookFrom root purpose (links + 1) here (name :: rest) =
      lookFrom root purpose links (linkStart here target) (namesOf target ++ rest) := by
  rw [lookFrom_down hpass hname, if_neg hslash, hlink]
  exact if_neg (by simpa using hitself)

/-- A lookup that succeeds has met no name that is too long. -/
theorem leadsDown_of_lookFrom {name : RawText} {rest : List RawText} {place : Place}
    (h : lookFrom root purpose links here (name :: rest) = .ok place)
    (hstay : ¬(name = [] ∨ name = [dot])) (hup : name ≠ [dot, dot]) : LeadsDown name := by
  obtain ⟨access, entries, hget, hexecute⟩ := mayPass_of_lookFrom h
  rw [lookFrom] at h
  simp only [hget] at h
  rw [if_neg (by simp [hexecute]), if_neg (by simpa using hstay), if_neg hup] at h
  rw [not_or] at hstay
  refine ⟨hstay.1, hstay.2, hup, not_lt.mp fun hsize => ?_⟩
  rw [if_pos hsize] at h
  split at h <;> simp at h

/-- **How a lookup that succeeds goes on** at one name. -/
inductive LooksOn (root : Node) (purpose : Purpose) (links : Nat) (here : Location)
    (name : RawText) (rest : List RawText) (place : Place) : Prop
  /-- It stays where it is. -/
  | stay (hname : name = [] ∨ name = [dot]) (h : lookFrom root purpose links here rest = .ok place)
  /-- It goes up. -/
  | up (hname : name = [dot, dot]) (h : lookFrom root purpose links here.dropLast rest = .ok place)
  /-- It ends at a free name. -/
  | free (hname : LeadsDown name) (hfree : root.get? (here ++ [name]) = none) (hrest : rest = [])
      (hplace : place = .free here name)
  /-- It ends at a link. -/
  | itself {target : RawText} (hname : LeadsDown name)
      (hlink : root.get? (here ++ [name]) = some (.link target)) (hpurpose : purpose = .entry)
      (hplace : place = .found (here ++ [name]) (.link target))
  /-- It follows a link. -/
  | follow {target : RawText} {fewer : Nat} (hname : LeadsDown name)
      (hlink : root.get? (here ++ [name]) = some (.link target)) (hlinks : links = fewer + 1)
      (h : lookFrom root purpose fewer (linkStart here target) (namesOf target ++ rest) = .ok place)
  /-- It goes down. -/
  | down {node : Node} (hname : LeadsDown name) (hnode : root.get? (here ++ [name]) = some node)
      (hnoLink : node.IsNoLink) (h : lookFrom root purpose links (here ++ [name]) rest = .ok place)

theorem looksOn_of_lookFrom {name : RawText} {rest : List RawText} {place : Place}
    (h : lookFrom root purpose links here (name :: rest) = .ok place) :
    LooksOn root purpose links here name rest place := by
  have hpass := mayPass_of_lookFrom h
  by_cases hstay : name = [] ∨ name = [dot]
  · exact .stay hstay (lookFrom_stay hpass hstay ▸ h)
  by_cases hup : name = [dot, dot]
  · subst hup
    exact .up rfl (lookFrom_up hpass ▸ h)
  have hname := leadsDown_of_lookFrom h hstay hup
  rw [lookFrom_down hpass hname] at h
  split at h
  · simp at h
  split at h
  · next hfree =>
      split at h
      · next hrest => exact .free hname hfree (List.isEmpty_iff.mp hrest) (Except.ok.inj h).symm
      · simp at h
  · next target hlink =>
      split at h
      · next hitself =>
          rw [Bool.and_eq_true, decide_eq_true_eq] at hitself
          exact .itself hname hlink hitself.2 (Except.ok.inj h).symm
      · cases links with
        | zero => simp at h
        | succ fewer => exact .follow hname hlink rfl h
  · next node hnoLink hnode =>
      exact .down hname hnode (fun target he => hnoLink target he) h

/-! ### Trees that grow -/

/-- A node but for what is in it. -/
def Node.shape : Node → Node
  | .dir access _ => .dir access .none
  | .file access _ => .file access []
  | other => other

theorem Node.shape_eq_dir_iff {node : Node} {access : Access} {entries : Entries} :
    node.shape = (Node.dir access entries).shape ↔ ∃ entries', node = .dir access entries' := by
  cases node <;> simp [Node.shape, eq_comm]

theorem Node.shape_eq_link_iff {node : Node} {target : RawText} :
    node.shape = (Node.link target).shape ↔ node = .link target := by
  cases node <;> simp [Node.shape]

/-- **A tree that has grown** holds a node of the same shape wherever there was one. -/
def Grows (root root' : Node) : Prop :=
  ∀ location node, root.get? location = some node →
    ∃ node', root'.get? location = some node' ∧ node'.shape = node.shape

theorem Grows.refl (root : Node) : Grows root root :=
  fun _ node h => ⟨node, h, rfl⟩

theorem Grows.trans {root'' : Node} (h : Grows root root') (h' : Grows root' root'') :
    Grows root root'' := by
  intro location node hget
  obtain ⟨node', hget', hshape'⟩ := h location node hget
  obtain ⟨node'', hget'', hshape''⟩ := h' location node' hget'
  exact ⟨node'', hget'', hshape''.trans hshape'⟩

theorem Grows.mayPass (h : Grows root root') (hpass : MayPass root here) :
    MayPass root' here := by
  obtain ⟨access, entries, hget, hexecute⟩ := hpass
  obtain ⟨node', hget', hshape⟩ := h here _ hget
  obtain ⟨entries', rfl⟩ := Node.shape_eq_dir_iff.mp hshape
  exact ⟨access, entries', hget', hexecute⟩

theorem Grows.link (h : Grows root root') {target : RawText}
    (hlink : root.get? here = some (.link target)) : root'.get? here = some (.link target) := by
  obtain ⟨node', hget', hshape⟩ := h here _ hlink
  rwa [Node.shape_eq_link_iff.mp hshape] at hget'

theorem Node.IsNoLink.of_shape {node node' : Node} (h : node.IsNoLink)
    (hshape : node'.shape = node.shape) : node'.IsNoLink := by
  rintro target rfl
  exact h target (Node.shape_eq_link_iff.mp hshape.symm)

theorem Grows.get?_eq_none (h : Grows root root') {location : Location}
    (hnone : root'.get? location = none) : root.get? location = none := by
  cases hget : root.get? location with
  | none => rfl
  | some node =>
      obtain ⟨node', hget', -⟩ := h location node hget
      rw [hnone] at hget'
      simp at hget'

/-- **The location of a place**, where it is one that names pass to. -/
inductive Place.LeadsTo (root' : Node) (purpose : Purpose) : Place → Location → Prop
  /-- A node that was found. -/
  | found {location : Location} {node : Node} (hpurpose : purpose ≠ .entry) :
      LeadsTo root' purpose (.found location node) location
  /-- A name that has been taken. -/
  | free {parent : Location} {name : RawText} {node : Node}
      (hnode : root'.get? (parent ++ [name]) = some node) (hnoLink : node.IsNoLink) :
      LeadsTo root' purpose (.free parent name) (parent ++ [name])

/-- **Where a lookup ends is where the names lead**, also when the tree has grown since. -/
theorem passes_of_lookFrom {names : List RawText} {place : Place} (hgrows : Grows root root')
    (h : lookFrom root purpose links here names = .ok place)
    (hplace : place.LeadsTo root' purpose there) :
    ∃ left, Passes root' links here names left there := by
  induction links using Nat.strong_induction_on generalizing here names with
  | _ links ihLinks =>
    induction names generalizing here with
    | nil =>
        rw [lookFrom] at h
        split at h
        · obtain rfl := Except.ok.inj h
          cases hplace
          exact ⟨links, .done ..⟩
        · simp at h
    | cons name rest ih =>
        have hpass := hgrows.mayPass (mayPass_of_lookFrom h)
        cases looksOn_of_lookFrom h with
        | stay hname hon =>
            obtain ⟨left, hpasses⟩ := ih hon
            exact ⟨left, .stay hpass hname hpasses⟩
        | up hname hon =>
            subst hname
            obtain ⟨left, hpasses⟩ := ih hon
            exact ⟨left, .up hpass hpasses⟩
        | free hname _ hrest hfree =>
            subst hrest hfree
            cases hplace with
            | free hnode hnoLink => exact ⟨links, .down hpass hname hnode hnoLink (.done ..)⟩
        | itself _ _ hpurpose hfound =>
            subst hfound
            cases hplace with
            | found hne => exact absurd hpurpose hne
        | follow hname hlink hlinks hon =>
            subst hlinks
            obtain ⟨left, hpasses⟩ := ihLinks _ (Nat.lt_succ_self _) hon
            exact ⟨left, .follow hpass hname (hgrows.link hlink) hpasses⟩
        | down hname hnode hnoLink hon =>
            obtain ⟨left, hpasses⟩ := ih hon
            obtain ⟨node', hnode', hshape⟩ := hgrows _ _ hnode
            exact ⟨left, .down hpass hname hnode' (hnoLink.of_shape hshape) hpasses⟩

/-- **Whoever passes the names finds what is there**, if it is no directory to be written. -/
theorem lookFrom_of_passes {names : List RawText} {node : Node} (hpurpose : purpose ≠ .entry)
    (h : Passes root links here names left there) (hnode : root.get? there = some node)
    (hout : purpose = .output → ¬ MayPass root there) :
    lookFrom root purpose links here names = .ok (.found there node) := by
  induction h with
  | done links here => rw [lookFrom, hnode]
  | stay hpass hname _ ih => rw [lookFrom_stay hpass hname, ih hnode hout]
  | up hpass _ ih => rw [lookFrom_up hpass, ih hnode hout]
  | follow hpass hname hlink h ih =>
      rw [lookFrom_link hpass hname _ hlink fun hitself => hpurpose hitself.2, ih hnode hout]
      rintro ⟨houtput, rfl⟩
      exact hout houtput h.mayPass_of_slash
  | down hpass hname hbelow hnoLink h ih =>
      rw [lookFrom_node hpass hname _ hbelow hnoLink, ih hnode hout]
      rintro ⟨houtput, rfl⟩
      have hslash : Passes root _ _ ([] ++ [[]]) _ _ := h
      exact hout houtput hslash.mayPass_of_slash

/-- What a place says about the tree. -/
def Place.IsIn (root : Node) : Place → Prop
  | .found location node => root.get? location = some node
  | .free parent name => root.get? (parent ++ [name]) = none

/-- Where a lookup ends is so in the tree. -/
theorem isIn_of_lookFrom {names : List RawText} {place : Place}
    (h : lookFrom root purpose links here names = .ok place) : place.IsIn root := by
  induction links using Nat.strong_induction_on generalizing here names with
  | _ links ihLinks =>
    induction names generalizing here with
    | nil =>
        rw [lookFrom] at h
        split at h
        · next hget =>
            obtain rfl := Except.ok.inj h
            exact hget
        · simp at h
    | cons name rest ih =>
        cases looksOn_of_lookFrom h with
        | stay _ hon => exact ih hon
        | up _ hon => exact ih hon
        | free _ hfree _ hplace =>
            subst hplace
            exact hfree
        | itself _ hlink _ hplace =>
            subst hplace
            exact hlink
        | follow _ _ hlinks hon => exact ihLinks _ (by omega) hon
        | down _ _ _ hon => exact ih hon

/-- **Where names lead to a node, there is something under them**, even if it is a link. -/
theorem exists_lookFrom_entry {names : List RawText} {node : Node}
    (h : Passes root links here names left there) (hnode : root.get? there = some node) :
    ∃ location found,
      lookFrom root .entry links here names = .ok (.found location found) := by
  induction h with
  | done links here => exact ⟨here, node, by rw [lookFrom, hnode]⟩
  | stay hpass hname _ ih => rw [lookFrom_stay hpass hname]; exact ih hnode
  | up hpass _ ih => rw [lookFrom_up hpass]; exact ih hnode
  | @follow _ _ _ _ _ _ rest hpass hname hlink _ ih =>
      by_cases hitself : rest = []
      · subst hitself
        rw [lookFrom_down hpass hname, if_neg (by simp), hlink]
        exact ⟨_, _, rfl⟩
      · rw [lookFrom_link hpass hname (by simp) hlink fun h => hitself h.1]
        exact ih hnode
  | down hpass hname hbelow hnoLink _ ih =>
      rw [lookFrom_node hpass hname (by simp) hbelow hnoLink]
      exact ih hnode

/-! ### The lookup of a path -/

/-- **A path that may be asked for**: it is not empty, not too long and without NUL. -/
structure IsAskable (p : Path) : Prop where
  /-- It has no NUL. -/
  nul_notMem : 0 ∉ p.bytes
  /-- It is not empty. -/
  ne_empty : p.bytes ≠ []
  /-- It is not too long. -/
  size : p.bytes.length ≤ pathLimit

/-- Where the lookup of a path starts. -/
def FileSystem.start (fs : FileSystem) (p : Path) : Location :=
  if p.isAbsolute then [] else fs.cwd

namespace FileSystem

variable {fs fs' : FileSystem} {p q : Path}

theorem look_eq (h : IsAskable p) :
    fs.look purpose p = lookFrom fs.root purpose linkLimit (fs.start p) (namesOf p.bytes) := by
  rw [look, if_neg (by simpa using h.nul_notMem), if_neg (by simpa using h.ne_empty),
    if_neg (not_lt.mpr h.size), start]

/-- Only a path that may be asked for leads anywhere. -/
theorem isAskable_of_look {place : Place} (h : fs.look purpose p = .ok place) : IsAskable p := by
  rw [look] at h
  split at h
  · simp at h
  split at h
  · simp at h
  split at h
  · simp at h
  · next hnul hempty hsize =>
      exact ⟨by simpa using hnul, by simpa using hempty, not_lt.mp hsize⟩

/-- What has been looked up leads on in a tree that has grown. -/
theorem passes_of_look {place : Place} (hgrows : Grows fs.root root')
    (h : fs.look purpose p = .ok place) (hplace : place.LeadsTo root' purpose there) :
    ∃ left, Passes root' linkLimit (fs.start p) (namesOf p.bytes) left there :=
  passes_of_lookFrom hgrows (look_eq (isAskable_of_look h) ▸ h) hplace

theorem find_eq_ok_iff_look {node : Node} :
    fs.find p = .ok (there, node) ↔ fs.look .target p = .ok (.found there node) := by
  rw [find]
  split <;> simp_all

theorem exists?_eq_true_iff :
    fs.exists? p = true ↔ ∃ there node, fs.find p = .ok (there, node) := by
  rw [exists?]
  cases fs.find p with
  | ok found => exact iff_of_true rfl ⟨found.1, found.2, rfl⟩
  | error e => simp

theorem isFile_eq_true_iff : fs.isFile p = true ↔
    ∃ there access content, fs.find p = .ok (there, .file access content) := by
  rw [isFile]
  split
  · next there access content hfind => simp [hfind]
  · next hnot =>
      refine iff_of_false (by simp) ?_
      rintro ⟨there, access, content, hfind⟩
      exact hnot there access content hfind

theorem isDir_eq_true_iff : fs.isDir p = true ↔
    ∃ there access entries, fs.find p = .ok (there, .dir access entries) := by
  rw [isDir]
  split
  · next there access entries hfind => simp [hfind]
  · next hnot =>
      refine iff_of_false (by simp) ?_
      rintro ⟨there, access, entries, hfind⟩
      exact hnot there access entries hfind

/-- **A path leads to a node** exactly if it may be asked for and its names lead to a location that
holds the node. -/
theorem find_eq_ok_iff {node : Node} :
    fs.find p = .ok (there, node) ↔ IsAskable p ∧
      (∃ left, Passes fs.root linkLimit (fs.start p) (namesOf p.bytes) left there) ∧
        fs.root.get? there = some node := by
  rw [find_eq_ok_iff_look]
  constructor
  · intro h
    have hask := isAskable_of_look h
    refine ⟨hask, passes_of_look (.refl _) h (.found (by simp)), ?_⟩
    rw [look_eq hask] at h
    exact isIn_of_lookFrom h
  · rintro ⟨hask, ⟨left, hpasses⟩, hnode⟩
    rw [look_eq hask]
    exact lookFrom_of_passes (by simp) hpasses hnode (by simp)

/-- **What a path leads to stays there** as the tree grows. -/
theorem find_of_grows {node : Node} (hroot : Grows fs.root fs'.root) (hcwd : fs'.cwd = fs.cwd)
    (h : fs.find p = .ok (there, node)) :
    ∃ node', fs'.find p = .ok (there, node') ∧ node'.shape = node.shape := by
  obtain ⟨hask, -, hnode⟩ := find_eq_ok_iff.mp h
  obtain ⟨left, hpasses⟩ :=
    passes_of_look hroot (find_eq_ok_iff_look.mp h) (.found (by simp))
  obtain ⟨node', hnode', hshape⟩ := hroot _ _ hnode
  refine ⟨node', find_eq_ok_iff.mpr ⟨hask, ⟨left, ?_⟩, hnode'⟩, hshape⟩
  rwa [start, hcwd]

/-- What leads nowhere in a tree that has grown led nowhere before. -/
theorem exists?_of_grows (hroot : Grows fs.root fs'.root) (hcwd : fs'.cwd = fs.cwd)
    (h : fs'.exists? p = false) : fs.exists? p = false := by
  rw [Bool.eq_false_iff, ne_eq, exists?_eq_true_iff] at h ⊢
  rintro ⟨there, node, hfind⟩
  obtain ⟨node', hfind', -⟩ := find_of_grows hroot hcwd hfind
  exact h ⟨there, node', hfind'⟩

/-- **A free name leads to what takes it**, unless that is a link. -/
theorem find_of_free {parent : Location} {name : RawText} {node : Node}
    (hroot : Grows fs.root fs'.root) (hcwd : fs'.cwd = fs.cwd)
    (h : fs.look purpose p = .ok (.free parent name))
    (hnode : fs'.root.get? (parent ++ [name]) = some node) (hnoLink : node.IsNoLink) :
    fs'.find p = .ok (parent ++ [name], node) := by
  obtain ⟨left, hpasses⟩ := passes_of_look hroot h (.free hnode hnoLink)
  refine find_eq_ok_iff.mpr ⟨isAskable_of_look h, ⟨left, ?_⟩, hnode⟩
  rwa [start, hcwd]

theorem isIn_of_look {place : Place} (h : fs.look purpose p = .ok place) :
    place.IsIn fs.root :=
  isIn_of_lookFrom (look_eq (isAskable_of_look h) ▸ h)

/-- What is found by a purpose that follows links is what the path leads to. -/
theorem find_of_look {node : Node} (hpurpose : purpose ≠ .entry)
    (h : fs.look purpose p = .ok (.found there node)) : fs.find p = .ok (there, node) :=
  find_eq_ok_iff.mpr
    ⟨isAskable_of_look h, passes_of_look (.refl _) h (.found hpurpose), isIn_of_look h⟩

/-- Something lies under a path that leads to a node. -/
theorem exists_look_entry_of_find {node : Node} (h : fs.find p = .ok (there, node)) :
    ∃ location found, fs.look .entry p = .ok (.found location found) := by
  obtain ⟨hask, ⟨left, hpasses⟩, hnode⟩ := find_eq_ok_iff.mp h
  rw [look_eq hask]
  exact exists_lookFrom_entry hpasses hnode

/-- What is found and is no directory may be written under the path. -/
theorem look_output_of_find {node : Node} (h : fs.find p = .ok (there, node))
    (hnode : node.isDir = false) : fs.look .output p = .ok (.found there node) := by
  obtain ⟨hask, ⟨left, hpasses⟩, hget⟩ := find_eq_ok_iff.mp h
  rw [look_eq hask]
  refine lookFrom_of_passes (by simp) hpasses hget fun _ hpass => ?_
  obtain ⟨access, entries, hdir, -⟩ := hpass
  rw [hget] at hdir
  obtain rfl := Option.some.inj hdir
  simp [Node.isDir] at hnode

end FileSystem

/-! ### Names and spellings -/

/-- The names in a spelling, without the empty ones. -/
def spoken (bs : RawText) : List RawText :=
  (Path.segments bs).filter (· != [])

theorem spoken_append_slash (bs ds : RawText) :
    spoken (bs ++ slash :: ds) = spoken bs ++ spoken ds := by
  rw [spoken, Path.segments_append_slash, List.filter_append, spoken, spoken]

/-- What means something says something. -/
theorem spoken_ne_nil {bs : RawText} (h : Path.named (Path.segments bs) ≠ []) :
    spoken bs ≠ [] := by
  intro he
  rw [spoken, List.filter_eq_nil_iff] at he
  refine h (Path.named_eq_nil_of_trivial fun s hs => ?_)
  obtain rfl : s = [] := by simpa using he s hs
  exact Path.isTrivial_nil

/-- The last piece is empty behind a slash. -/
theorem getLast?_segments_eq_iff (bs : RawText) :
    (1 < (Path.segments bs).length ∧ (Path.segments bs).getLast? = some []) ↔
      bs.getLast? = some slash := by
  constructor
  · rintro ⟨hlen, hlast⟩
    obtain ⟨front, hfront⟩ := List.getLast?_eq_some_iff.mp hlast
    have hne : front ≠ [] := by
      rintro rfl
      simp [hfront] at hlen
    rw [← Path.joined_segments bs, hfront, Path.joined_append hne (by simp)]
    exact List.getLast?_concat
  · intro h
    obtain ⟨ds, rfl⟩ := List.getLast?_eq_some_iff.mp h
    rw [Path.segments_append_slash]
    have hpos := List.length_pos_of_ne_nil (Path.segments_ne_nil ds)
    constructor
    · simpa using hpos
    · simp

/-- **The names of a path**: those in its spelling, and an empty one for a slash at the end. -/
theorem namesOf_eq (p : Path) :
    namesOf p.bytes = spoken p.bytes ++ if FileSystem.endsInSlash p then [[]] else [] := by
  have hslash : (decide ((Path.segments p.bytes).length > 1) &&
      (Path.segments p.bytes).getLast? == some [] && !(spoken p.bytes).isEmpty) =
        FileSystem.endsInSlash p := by
    rw [Bool.eq_iff_iff, FileSystem.endsInSlash]
    simp only [Bool.and_eq_true, decide_eq_true_eq, beq_iff_eq, gt_iff_lt,
      getLast?_segments_eq_iff]
    simp [spoken]
  rw [namesOf, ← spoken, hslash]
  split <;> simp

theorem endsInSlash_of_parent? {p q : Path} (h : p.parent? = some q) :
    FileSystem.endsInSlash q = false := by
  rw [FileSystem.endsInSlash]
  by_cases hq : q.bytes = []
  · simp [hq]
  rcases Path.exists_bytes_of_parent? h hq with ⟨-, -, hlast⟩ | ⟨hroot, -⟩
  · rw [beq_eq_false_iff_ne.mpr hlast, Bool.false_and]
  · rw [hroot]
    rfl

theorem endsInSlash_of_above {p q : Path} (h : p.Above q) :
    FileSystem.endsInSlash q = false := by
  obtain ⟨child, hchild⟩ := h.exists_child
  exact endsInSlash_of_parent? hchild

/-- The names of a parent are those in its spelling. -/
theorem namesOf_of_parent? {p q : Path} (h : p.parent? = some q) :
    namesOf q.bytes = spoken q.bytes := by
  rw [namesOf_eq, endsInSlash_of_parent? h]
  simp

/-- **The names of a path begin with those of its parent.** -/
theorem exists_spoken_of_parent? {p q : Path} (h : p.parent? = some q) (hq : q.bytes ≠ []) :
    ∃ ds, p.components = q.components ++ Path.named (Path.segments ds) ∧
      spoken p.bytes = spoken q.bytes ++ spoken ds := by
  obtain ⟨ds, hcomponents, hds | ⟨hroot, hds⟩⟩ := Path.exists_rest_of_parent? h hq
  · exact ⟨ds, hcomponents, by rw [hds, spoken_append_slash]⟩
  · refine ⟨ds, hcomponents, ?_⟩
    rw [hroot, hds, spoken, Path.segments_slash_cons]
    rfl

/-- The same with what lies further up. -/
theorem exists_spoken_of_above {p q : Path} (h : p.Above q) (hq : q.bytes ≠ []) :
    ∃ ds, p.components = q.components ++ Path.named (Path.segments ds) ∧
      Path.named (Path.segments ds) ≠ [] ∧
        spoken p.bytes = spoken q.bytes ++ spoken ds := by
  induction h using Relation.TransGen.head_induction_on with
  | single hparent =>
      obtain ⟨ds, hcomponents, hspoken⟩ := exists_spoken_of_parent? hparent hq
      refine ⟨ds, hcomponents, fun hnil => ?_, hspoken⟩
      have hlen := Path.components_length_of_parent? hparent
      simp [hcomponents, hnil] at hlen
  | @head p r hparent habove ih =>
      have hr := Path.AtOrAbove.bytes_ne_nil habove.to_reflTransGen hq
      obtain ⟨ds, hcomponents, hspoken⟩ := exists_spoken_of_parent? hparent hr
      obtain ⟨ds', hcomponents', hne, hspoken'⟩ := ih
      refine ⟨ds' ++ slash :: ds, ?_, ?_, ?_⟩
      · rw [hcomponents, hcomponents', Path.segments_append_slash, Path.named_append,
          List.append_assoc]
      · rw [Path.segments_append_slash, Path.named_append]
        exact List.append_ne_nil_of_left_ne_nil hne _
      · rw [hspoken, hspoken', spoken_append_slash, List.append_assoc]

/-! ### What lies above a path that leads somewhere -/

namespace FileSystem

variable {fs : FileSystem} {p q : Path} {node : Node}

theorem isAskable_of_above (h : IsAskable p) (habove : p.Above q) (hq : q.bytes ≠ []) :
    IsAskable q := by
  obtain ⟨ds, hds⟩ := habove.isPrefix
  refine ⟨fun hmem => h.nul_notMem (habove.isPrefix.mem hmem), hq, ?_⟩
  have hsize := h.size
  rw [← hds, List.length_append] at hsize
  omega

theorem start_of_above (habove : p.Above q) (hq : q.bytes ≠ []) : fs.start p = fs.start q := by
  obtain ⟨ds, hds⟩ := habove.isPrefix
  have hhead : p.isAbsolute = q.isAbsolute := by
    rw [Path.isAbsolute, Path.isAbsolute, ← hds, List.head?_append_of_ne_nil _ hq]
  rw [start, start, hhead]

/-- **The way of a path leads over what lies above it**, which is a directory that lets pass, and from
there on by the names behind. -/
theorem exists_passes_of_above (habove : p.Above q) (hq : q.bytes ≠ [])
    (hp : fs.find p = .ok (there, node)) :
    ∃ mid access entries, fs.find q = .ok (mid, .dir access entries) ∧ access.execute = true ∧
      ∃ ds more between left, p.components = q.components ++ Path.named (Path.segments ds) ∧
        Path.named (Path.segments ds) ≠ [] ∧
        Passes fs.root between mid (spoken ds ++ more) left there := by
  obtain ⟨hask, ⟨left, hpasses⟩, hnode⟩ := find_eq_ok_iff.mp hp
  obtain ⟨ds, hcomponents, hne, hspoken⟩ := exists_spoken_of_above habove hq
  obtain ⟨child, hchild⟩ := habove.exists_child
  rw [namesOf_eq, hspoken, List.append_assoc, ← namesOf_of_parent? hchild, passes_append_iff]
    at hpasses
  obtain ⟨between, mid, hfirst, hrest⟩ := hpasses
  obtain ⟨access, entries, hdir, hexecute⟩ : MayPass fs.root mid := by
    exact hrest.mayPass (List.append_ne_nil_of_left_ne_nil (spoken_ne_nil hne) _)
  refine ⟨mid, access, entries,
    find_eq_ok_iff.mpr ⟨isAskable_of_above hask habove hq, ⟨between, ?_⟩, hdir⟩, hexecute, ds, _,
    between, left, hcomponents, hne, hrest⟩
  rwa [← start_of_above habove hq]

/-- **A path leads nowhere below a directory that is empty**, unless it leads up again. -/
theorem find_ne_ok_of_empty {mid : Location} {access : Access} (habove : p.Above q)
    (hq : q.bytes ≠ []) (hfind : fs.find q = .ok (mid, .dir access .none))
    (hup : .up ∉ p.components) : fs.find p ≠ .ok (there, node) := by
  intro hp
  obtain ⟨mid', access', entries, hfind', -, ds, more, between, left, hcomponents, hne, hpasses⟩ :=
    exists_passes_of_above habove hq hp
  rw [hfind] at hfind'
  obtain ⟨rfl, -⟩ := Prod.mk.inj (Except.ok.inj hfind')
  obtain ⟨-, -, hdir⟩ := find_eq_ok_iff.mp hfind
  refine not_passes_of_empty hdir hne (fun hmem => hup ?_) more hpasses
  rw [hcomponents]
  exact List.mem_append_right _ hmem

end FileSystem

end LintSuite.Host
