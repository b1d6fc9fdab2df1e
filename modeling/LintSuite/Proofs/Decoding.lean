import LintSuite.Proofs.Utf8
import Mathlib

/-!
# Forgiving reading

What becomes of bytes that are no text is a matter of where one ill-formed piece ends and the next
one begins.  The standard puts one replacement character for each *maximal subpart*: where no
character stands in front, it takes as many bytes as some character begins with, or else a single
byte (`IsSubpart`).  `ReadsAs` says so of a whole byte string, in terms of encoded characters alone.

`readsAs_iff` holds the machine of `decodeLossy` against this.  That a byte string is read in one way
only needs no machine (`ReadsAs.unique`).  That it is read as the machine has it
(`readsAs_decodeLossy`) rests on what is known of a character under way (`Under`): its bytes can be
completed (`Under.begins`), and a byte that the machine does not take cannot be part of it, since a
whole character is never read as something ill-formed (`not_prefix_of_piecesFrom`).

### Design decisions

**The standard's words, and no machine.**  `IsSubpart` speaks of encoded characters and of what they
begin with, and mentions neither ranges of bytes nor states.  It can be checked against the standard by
reading it, and it would stand for any other decoder.

**Relation first, function second.**  `ReadsAs` is shown to have one text for every byte string
without the machine (`ReadsAs.unique`).  For the other half it suffices that the machine's text is
one of those: what is decoded never has to be characterized twice.

### What is load-bearing

`begins` and `isSubpart_singleton`: some character begins with whatever is under way, and a byte that
is refused while nothing is under way begins none.  The ranges of second bytes, which keep out overlong
forms, surrogates and what is past the last code point, are used there and nowhere else.
-/

namespace LintSuite.Text.Utf8

/-! ### Subparts -/

/-- **The beginning of a character**, up to all of its bytes. -/
def Begins (part : List UInt8) : Prop :=
  ∃ c, part <+: String.utf8EncodeChar c

/-- **A maximal subpart** in front of other bytes. -/
structure IsSubpart (part rest : List UInt8) : Prop where
  /-- No character stands in front. -/
  unread : ∀ c, ¬ String.utf8EncodeChar c <+: part ++ rest
  /-- It is not empty. -/
  ne_nil : part ≠ []
  /-- Some character begins with it, or it is a single byte. -/
  begins : Begins part ∨ part.length = 1
  /-- No character begins with more than that. -/
  maximal : ∀ more, more ≠ [] → more <+: rest → ¬ Begins (part ++ more)

/-- **How a byte string is read**: character by character, with one replacement for each maximal
subpart that is no character. -/
inductive ReadsAs : List UInt8 → List Char → Prop
  /-- Nothing is left. -/
  | nil : ReadsAs [] []
  /-- A character. -/
  | char (c : Char) {bytes : List UInt8} {text : List Char} (h : ReadsAs bytes text) :
      ReadsAs (String.utf8EncodeChar c ++ bytes) (c :: text)
  /-- A subpart that is no character. -/
  | subpart {part bytes : List UInt8} {text : List Char} (hpart : IsSubpart part bytes)
      (h : ReadsAs bytes text) : ReadsAs (part ++ bytes) (replacement :: text)

/-! ### One reading -/

theorem encodeChar_ne_nil (c : Char) : String.utf8EncodeChar c ≠ [] := by
  intro h
  have hread := piecesFrom_encodeChar c []
  rw [h] at hread
  cases hread

/-- A character is told by its bytes, whatever follows them. -/
theorem encodeChar_append_inj {c d : Char} {bytes more : List UInt8}
    (h : String.utf8EncodeChar c ++ bytes = String.utf8EncodeChar d ++ more) :
    c = d ∧ bytes = more := by
  have hread := congrArg (piecesFrom none) h
  rw [piecesFrom_encodeChar, piecesFrom_encodeChar] at hread
  obtain rfl : c = d := Option.some.inj (List.cons.inj hread).1
  exact ⟨rfl, List.append_cancel_left h⟩

/-- Of two subparts in front of the same bytes the longer one begins no character, and is a single
byte.  So there are no two. -/
theorem IsSubpart.not_append {part more rest : List UInt8} (h : IsSubpart part (more ++ rest))
    (hmore : more ≠ []) : ¬ IsSubpart (part ++ more) rest := by
  intro hlonger
  rcases hlonger.begins with hbegins | hlength
  · exact h.maximal more hmore (List.prefix_append more rest) hbegins
  · have hpart := List.length_pos_of_ne_nil h.ne_nil
    have hpositive := List.length_pos_of_ne_nil hmore
    rw [List.length_append] at hlength
    omega

theorem IsSubpart.unique {part other bytes more : List UInt8} (h : IsSubpart part bytes)
    (hother : IsSubpart other more) (heq : part ++ bytes = other ++ more) :
    part = other ∧ bytes = more := by
  obtain ⟨between, rfl, rfl⟩ | ⟨between, rfl, rfl⟩ := List.append_eq_append_iff.mp heq
  · by_cases hnil : between = []
    · simp [hnil]
    · exact absurd hother (h.not_append hnil)
  · by_cases hnil : between = []
    · simp [hnil]
    · exact absurd h (hother.not_append hnil)

/-- **A byte string is read in one way.** -/
theorem ReadsAs.unique {bytes : List UInt8} {text other : List Char} (h : ReadsAs bytes text)
    (hother : ReadsAs bytes other) : text = other := by
  induction h generalizing other with
  | nil =>
      generalize hbytes : ([] : List UInt8) = bytes at hother
      cases hother with
      | nil => rfl
      | char c _ =>
          exact absurd (List.append_eq_nil_iff.mp hbytes.symm).1 (encodeChar_ne_nil c)
      | subpart hpart _ => exact absurd (List.append_eq_nil_iff.mp hbytes.symm).1 hpart.ne_nil
  | @char c bytes text _ ih =>
      generalize hall : String.utf8EncodeChar c ++ bytes = all at hother
      cases hother with
      | nil => exact absurd (List.append_eq_nil_iff.mp hall).1 (encodeChar_ne_nil c)
      | char d hmore =>
          obtain ⟨rfl, rfl⟩ := encodeChar_append_inj hall
          rw [ih hmore]
      | subpart hpart _ => exact absurd (hall ▸ List.prefix_append _ bytes) (hpart.unread c)
  | @subpart part bytes text hpart _ ih =>
      generalize hall : part ++ bytes = all at hother
      cases hother with
      | nil => exact absurd (List.append_eq_nil_iff.mp hall).1 hpart.ne_nil
      | char d _ => exact absurd (hall ▸ List.prefix_append _ _) (hpart.unread d)
      | subpart hmore hrest =>
          obtain ⟨rfl, rfl⟩ := hpart.unique hmore hall
          rw [ih hrest]

/-! ### The characters of given bytes -/

theorem val_ofNat {v : Nat} (h : v.isValidChar) : (Char.ofNat v).val.toNat = v := by
  have hnumber := Char.toNat_ofNat v
  rwa [if_pos h] at hnumber

theorem ofNat_eq (b : UInt8) {n : Nat} (h : n = b.toNat) : UInt8.ofNat n = b := by
  rw [h, UInt8.ofNat_toNat]

theorem encodeChar_of_one {b : UInt8} (hb : b.toNat < 0x80) :
    String.utf8EncodeChar (Char.ofNat b.toNat) = [b] := by
  simp only [String.utf8EncodeChar]
  rw [val_ofNat (.inl (by omega)), if_pos (by omega), UInt8.ofNat_toNat]

theorem encodeChar_of_two {b d : UInt8} (hlow : 0xC2 ≤ b.toNat) (hhigh : b.toNat < 0xE0)
    (hd : 0x80 ≤ d.toNat) (hd' : d.toNat ≤ 0xBF) :
    String.utf8EncodeChar (Char.ofNat ((b.toNat - 0xC0) * 64 + (d.toNat - 0x80))) = [b, d] := by
  simp only [String.utf8EncodeChar]
  rw [val_ofNat (.inl (by omega)), if_neg (by omega), if_pos (by omega), ofNat_eq b (by omega),
    ofNat_eq d (by omega)]

/-- The second of three bytes keeps out what two bytes suffice for, and the surrogates. -/
theorem encodeChar_of_three {b d e : UInt8} (hlow : 0xE0 ≤ b.toNat) (hhigh : b.toNat < 0xF0)
    (hd : 0x80 ≤ d.toNat) (hd' : d.toNat ≤ 0xBF) (hfirst : b.toNat = 0xE0 → 0xA0 ≤ d.toNat)
    (hlast : b.toNat = 0xED → d.toNat ≤ 0x9F) (he : 0x80 ≤ e.toNat) (he' : e.toNat ≤ 0xBF) :
    String.utf8EncodeChar (Char.ofNat
      (((b.toNat - 0xE0) * 64 + (d.toNat - 0x80)) * 64 + (e.toNat - 0x80))) = [b, d, e] := by
  have hvalid : (((b.toNat - 0xE0) * 64 + (d.toNat - 0x80)) * 64 +
      (e.toNat - 0x80)).isValidChar := by
    by_cases hsurrogate : b.toNat < 0xED ∨ b.toNat = 0xED
    · exact .inl (by omega)
    · exact .inr (by omega)
  simp only [String.utf8EncodeChar]
  rw [val_ofNat hvalid, if_neg (by omega), if_neg (by omega), if_pos (by omega),
    ofNat_eq b (by omega), ofNat_eq d (by omega), ofNat_eq e (by omega)]

/-- The second of four bytes keeps out what three bytes suffice for, and what is past the last code
point. -/
theorem encodeChar_of_four {b d e f : UInt8} (hlow : 0xF0 ≤ b.toNat) (hhigh : b.toNat ≤ 0xF4)
    (hd : 0x80 ≤ d.toNat) (hd' : d.toNat ≤ 0xBF) (hfirst : b.toNat = 0xF0 → 0x90 ≤ d.toNat)
    (hlast : b.toNat = 0xF4 → d.toNat ≤ 0x8F) (he : 0x80 ≤ e.toNat) (he' : e.toNat ≤ 0xBF)
    (hf : 0x80 ≤ f.toNat) (hf' : f.toNat ≤ 0xBF) :
    String.utf8EncodeChar (Char.ofNat ((((b.toNat - 0xF0) * 64 + (d.toNat - 0x80)) * 64 +
      (e.toNat - 0x80)) * 64 + (f.toNat - 0x80))) = [b, d, e, f] := by
  simp only [String.utf8EncodeChar]
  rw [val_ofNat (.inr (by omega)), if_neg (by omega), if_neg (by omega), if_neg (by omega),
    ofNat_eq b (by omega), ofNat_eq d (by omega), ofNat_eq e (by omega), ofNat_eq f (by omega)]

/-! ### Characters under way -/

/-- **The bytes that complete a character under way**, and the character. -/
inductive Pending.Completes : Pending → List UInt8 → Char → Prop
  /-- The last byte. -/
  | last {p : Pending} {b : UInt8} (howed : p.owed ≤ 1) (hlow : p.low ≤ b.toNat)
      (hhigh : b.toNat ≤ p.high) :
      Completes p [b] (Char.ofNat (p.value * 64 + (b.toNat - 0x80)))
  /-- A byte before the last. -/
  | more {p : Pending} {b : UInt8} {bytes : List UInt8} {c : Char} (howed : 1 < p.owed)
      (hlow : p.low ≤ b.toNat) (hhigh : b.toNat ≤ p.high)
      (h : Completes ⟨p.owed - 1, 0x80, 0xBF, p.value * 64 + (b.toNat - 0x80)⟩ bytes c) :
      Completes p (b :: bytes) c

/-- A character under way can be completed. -/
theorem Pending.exists_completes (owed : Nat) {low high : Nat} (value : Nat) (hlow : low ≤ high)
    (hhigh : high < 0x100) : ∃ bytes c, Completes ⟨owed, low, high, value⟩ bytes c := by
  have hbyte (low high : Nat) (hlow : low ≤ high) (hhigh : high < 0x100) :
      low ≤ (UInt8.ofNat low).toNat ∧ (UInt8.ofNat low).toNat ≤ high := by
    rw [UInt8.toNat_ofNat_of_lt' (by simp only [UInt8.size]; omega)]
    exact ⟨le_rfl, hlow⟩
  induction owed generalizing low high value with
  | zero =>
      obtain ⟨hge, hle⟩ := hbyte low high hlow hhigh
      exact ⟨_, _, .last (by simp) hge hle⟩
  | succ owed ih =>
      obtain ⟨hge, hle⟩ := hbyte low high hlow hhigh
      by_cases howed : owed = 0
      · exact ⟨_, _, .last (by simp [howed]) hge hle⟩
      · have hnext (value : Nat) : ∃ bytes c, Completes ⟨owed, 0x80, 0xBF, value⟩ bytes c :=
          ih value (by omega) (by omega)
        obtain ⟨bytes, c, h⟩ := hnext _
        exact ⟨_, _, .more (by show 1 < owed + 1; omega) hge hle h⟩

theorem Pending.Completes.of_last {p : Pending} {bytes : List UInt8} {c : Char}
    (h : p.Completes bytes c) (howed : p.owed = 1) :
    ∃ b, bytes = [b] ∧ p.low ≤ b.toNat ∧ b.toNat ≤ p.high ∧
      Char.ofNat (p.value * 64 + (b.toNat - 0x80)) = c := by
  cases h with
  | last _ hlow hhigh => exact ⟨_, rfl, hlow, hhigh, rfl⟩
  | more hmore _ _ _ => omega

theorem Pending.Completes.of_more {p : Pending} {bytes : List UInt8} {c : Char}
    (h : p.Completes bytes c) (howed : 1 < p.owed) :
    ∃ b rest, bytes = b :: rest ∧ p.low ≤ b.toNat ∧ b.toNat ≤ p.high ∧
      Completes ⟨p.owed - 1, 0x80, 0xBF, p.value * 64 + (b.toNat - 0x80)⟩ rest c := by
  cases h with
  | last hlast _ _ => omega
  | more _ hlow hhigh h => exact ⟨_, _, rfl, hlow, hhigh, h⟩

/-- **A first byte and what completes it are the bytes of a character.** -/
theorem encodeChar_of_start {b : UInt8} {p : Pending} (h : start b = ([], some p))
    {bytes : List UInt8} {c : Char} (hc : p.Completes bytes c) :
    String.utf8EncodeChar c = b :: bytes := by
  have hstarts : Starts b ([], some p) := h ▸ starts_start b
  cases hstarts with
  | two hleast hmost =>
      obtain ⟨d, rfl, hd, hd', rfl⟩ := hc.of_last rfl
      exact encodeChar_of_two hleast hmost hd hd'
  | three hleast hmost hlow _ hhigh hfirst hlast =>
      obtain ⟨d, rest, rfl, hd, hd', hrest⟩ := hc.of_more (by simp)
      obtain ⟨e, rfl, he, he', rfl⟩ := hrest.of_last rfl
      dsimp only at hd hd' he he' ⊢
      exact encodeChar_of_three hleast hmost (by omega) (by omega) (by omega) (by omega) he he'
  | four hleast hmost hlow _ hhigh hfirst hlast =>
      obtain ⟨d, rest, rfl, hd, hd', hrest⟩ := hc.of_more (by simp)
      obtain ⟨e, rest, rfl, he, he', hrest⟩ := hrest.of_more (by simp)
      obtain ⟨f, rfl, hf, hf', rfl⟩ := hrest.of_last rfl
      dsimp only at hd hd' he he' hf hf' ⊢
      exact encodeChar_of_four hleast hmost (by omega) (by omega) (by omega) (by omega) he he' hf
        hf'

/-- **A character under way**: the bytes it was begun with, and what the machine knows of it. -/
inductive Under : List UInt8 → Pending → Prop
  /-- One byte. -/
  | first {b : UInt8} {p : Pending} (h : start b = ([], some p)) : Under [b] p
  /-- One more. -/
  | next {part : List UInt8} {p : Pending} {b : UInt8} (h : Under part p) (howed : 1 < p.owed)
      (hlow : p.low ≤ b.toNat) (hhigh : b.toNat ≤ p.high) :
      Under (part ++ [b]) ⟨p.owed - 1, 0x80, 0xBF, p.value * 64 + (b.toNat - 0x80)⟩

namespace Under

variable {part : List UInt8} {p : Pending}

theorem ne_nil (h : Under part p) : part ≠ [] := by
  cases h <;> simp

/-- Nothing is read yet of a character under way. -/
theorem piecesFrom_append (h : Under part p) (more : List UInt8) :
    piecesFrom none (part ++ more) = piecesFrom (some p) more := by
  induction h generalizing more with
  | @first b p h =>
      rw [List.singleton_append, piecesFrom_cons, step, h]
      rfl
  | @next part p b _ howed hlow hhigh ih =>
      have hstep : step (some p) b =
          ([], some ⟨p.owed - 1, 0x80, 0xBF, p.value * 64 + (b.toNat - 0x80)⟩) := by
        simp only [step]
        rw [if_pos ⟨hlow, hhigh⟩, if_neg (by omega)]
      rw [List.append_assoc, ih, List.singleton_append, piecesFrom_cons, hstep]
      rfl

/-- **What completes a character under way makes its bytes those of a character.** -/
theorem encodeChar_of_completes (h : Under part p) {bytes : List UInt8} {c : Char}
    (hc : p.Completes bytes c) : String.utf8EncodeChar c = part ++ bytes := by
  induction h generalizing bytes with
  | first h => exact encodeChar_of_start h hc
  | next _ howed hlow hhigh ih =>
      rw [List.append_assoc]
      exact ih (.more howed hlow hhigh hc)

/-- The range of the next byte is not empty. -/
theorem range (h : Under part p) : p.low ≤ p.high ∧ p.high < 0x100 := by
  cases h with
  | @first b p h =>
      have hstarts : Starts b ([], some p) := h ▸ starts_start b
      cases hstarts with
      | two => exact ⟨by simp, by simp⟩
      | three _ _ _ hrange hhigh => exact ⟨hrange, by dsimp only; omega⟩
      | four _ _ _ hrange hhigh => exact ⟨hrange, by dsimp only; omega⟩
  | next => exact ⟨by simp, by simp⟩

/-- **Some character begins with the bytes of a character under way.** -/
theorem begins (h : Under part p) : Begins part := by
  obtain ⟨hrange, hhigh⟩ := h.range
  obtain ⟨bytes, c, hc⟩ := Pending.exists_completes p.owed p.value hrange hhigh
  exact ⟨c, bytes, (h.encodeChar_of_completes hc).symm⟩

end Under

/-! ### What the machine reads -/

/-- A whole character is never read as something ill-formed. -/
theorem not_prefix_of_piecesFrom {bytes : List UInt8} {pieces : List Piece}
    (h : piecesFrom none bytes = none :: pieces) (c : Char) :
    ¬ String.utf8EncodeChar c <+: bytes := by
  rintro ⟨rest, rfl⟩
  rw [piecesFrom_encodeChar] at h
  cases h

/-- Nothing that the machine finds ill-formed, whatever follows it, begins a character. -/
theorem not_begins_of_piecesFrom {bytes : List UInt8}
    (h : ∀ more, ∃ pieces, piecesFrom none (bytes ++ more) = none :: pieces) : ¬ Begins bytes := by
  rintro ⟨c, more, hc⟩
  obtain ⟨pieces, hpieces⟩ := h more
  exact not_prefix_of_piecesFrom hpieces c (hc ▸ List.prefix_rfl)

/-- A byte that begins nothing is a subpart of its own. -/
theorem isSubpart_singleton {b : UInt8} (h : start b = ([none], none)) (rest : List UInt8) :
    IsSubpart [b] rest := by
  have hread (more : List UInt8) : piecesFrom none (b :: more) = none :: piecesFrom none more := by
    rw [piecesFrom_cons, step, h]
    rfl
  constructor
  case unread => exact fun c => not_prefix_of_piecesFrom (hread rest) c
  case ne_nil => exact List.cons_ne_nil b []
  case begins => exact .inr rfl
  case maximal => exact fun more _ _ => not_begins_of_piecesFrom fun further => ⟨_, hread _⟩

/-- **A character under way is a subpart if the next byte is not one of its own.** -/
theorem Under.isSubpart {part : List UInt8} {p : Pending} (h : Under part p) {rest : List UInt8}
    (hrest : ∀ b ∈ rest.head?, ¬ (p.low ≤ b.toNat ∧ b.toNat ≤ p.high)) :
    IsSubpart part rest ∧ piecesFrom none (part ++ rest) = none :: piecesFrom none rest := by
  have hread {b : UInt8} (hb : ¬ (p.low ≤ b.toNat ∧ b.toNat ≤ p.high)) (more : List UInt8) :
      piecesFrom none (part ++ b :: more) = none :: piecesFrom none (b :: more) := by
    rw [h.piecesFrom_append, piecesFrom_cons]
    simp only [step]
    rw [if_neg hb]
    rfl
  have hpieces : piecesFrom none (part ++ rest) = none :: piecesFrom none rest := by
    cases rest with
    | nil => rw [h.piecesFrom_append]; rfl
    | cons b more => exact hread (hrest b rfl) more
  refine ⟨?_, hpieces⟩
  constructor
  case unread => exact fun c => not_prefix_of_piecesFrom hpieces c
  case ne_nil => exact h.ne_nil
  case begins => exact .inl h.begins
  case maximal =>
    intro more hmore hfront
    obtain ⟨b, more, rfl⟩ := List.exists_cons_of_ne_nil hmore
    obtain ⟨behind, rfl⟩ := hfront
    refine not_begins_of_piecesFrom fun further => ⟨piecesFrom none (b :: (more ++ further)), ?_⟩
    rw [List.append_assoc]
    exact hread (hrest b rfl) (more ++ further)

/-- **What stands in front**: a character, or a subpart that the machine finds ill-formed. -/
def StandsInFront (front left : List UInt8) : Prop :=
  (∃ c, String.utf8EncodeChar c = front) ∨
    IsSubpart front left ∧ piecesFrom none (front ++ left) = none :: piecesFrom none left

/-- A character under way is completed, or ends as a subpart. -/
theorem Under.exists_standsInFront {part : List UInt8} {p : Pending} (h : Under part p)
    (rest : List UInt8) :
    ∃ behind left, rest = behind ++ left ∧ StandsInFront (part ++ behind) left := by
  induction rest generalizing part p with
  | nil =>
      refine ⟨[], [], rfl, .inr ?_⟩
      rw [List.append_nil]
      exact h.isSubpart (by simp)
  | cons b rest ih =>
      by_cases hb : p.low ≤ b.toNat ∧ b.toNat ≤ p.high
      · by_cases howed : p.owed ≤ 1
        · exact ⟨[b], rest, rfl, .inl ⟨_, h.encodeChar_of_completes (.last howed hb.1 hb.2)⟩⟩
        · obtain ⟨behind, left, rfl, hfront⟩ := ih (h.next (by omega) hb.1 hb.2)
          rw [List.append_assoc, List.singleton_append] at hfront
          exact ⟨b :: behind, left, rfl, hfront⟩
      · refine ⟨[], b :: rest, rfl, .inr ?_⟩
        rw [List.append_nil]
        refine h.isSubpart fun d hd => ?_
        obtain rfl : b = d := Option.some.inj hd
        exact hb

/-- Something stands in front of every byte string but the empty one. -/
theorem exists_standsInFront (b : UInt8) (bytes : List UInt8) :
    ∃ behind left, bytes = behind ++ left ∧ StandsInFront (b :: behind) left := by
  have hunder {p : Pending} (h : start b = ([], some p)) :=
    (Under.first h).exists_standsInFront bytes
  have hstarts := starts_start b
  generalize hread : start b = read at hstarts
  cases hstarts with
  | one hascii => exact ⟨[], bytes, rfl, .inl ⟨_, encodeChar_of_one hascii⟩⟩
  | alone =>
      refine ⟨[], bytes, rfl, .inr ⟨isSubpart_singleton hread bytes, ?_⟩⟩
      rw [List.singleton_append, piecesFrom_cons, step, hread]
      rfl
  | two => exact hunder hread
  | three => exact hunder hread
  | four => exact hunder hread

theorem decodeLossy_encodeChar_append (c : Char) (bytes : List UInt8) :
    decodeLossy (String.utf8EncodeChar c ++ bytes) = c :: decodeLossy bytes := by
  rw [decodeLossy, pieces, piecesFrom_encodeChar]
  rfl

/-- **A byte string is read as the machine reads it.** -/
theorem readsAs_decodeLossy (bytes : List UInt8) : ReadsAs bytes (decodeLossy bytes) := by
  -- What stands in front is at least one byte long.
  induction hlength : bytes.length using Nat.strong_induction_on generalizing bytes with
  | _ n ih =>
      cases bytes with
      | nil => exact .nil
      | cons b bytes =>
          obtain ⟨behind, left, rfl, hfront⟩ := exists_standsInFront b bytes
          have hleft : ReadsAs left (decodeLossy left) := by
            refine ih left.length ?_ left rfl
            rw [← hlength, List.length_cons, List.length_append]
            omega
          rw [← List.cons_append]
          rcases hfront with ⟨c, hc⟩ | ⟨hsubpart, hread⟩
          · rw [← hc, decodeLossy_encodeChar_append]
            exact hleft.char c
          · have hdecoded : decodeLossy (b :: behind ++ left) = replacement :: decodeLossy left := by
              rw [decodeLossy, pieces, hread]
              rfl
            rw [hdecoded]
            exact hleft.subpart hsubpart

/-- **How a byte string is read**, in one way and no other. -/
theorem readsAs_iff {bytes : List UInt8} {text : List Char} :
    ReadsAs bytes text ↔ text = decodeLossy bytes := by
  constructor
  · exact fun h => h.unique (readsAs_decodeLossy bytes)
  · rintro rfl
    exact readsAs_decodeLossy bytes

end LintSuite.Text.Utf8
