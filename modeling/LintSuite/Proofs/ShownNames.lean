import LintSuite.Proofs.Decoding
import LintSuite.Proofs.Path

/-!
# What is shown of names and paths

The system keeps bytes, and whoever shows a name decodes it forgivingly (`RawText.shown`).  For a text
nothing is lost (`shown_ofText`), and a text without replacement characters is what is shown of its
own bytes and of no others (`shown_eq_iff`).  A name that is no text is shown as another one, and
several names may be shown alike; so no statement about files goes through what is shown of them.

A slash is a byte of its own wherever it stands, so showing a path shows it piece by piece
(`segments_ofText_shown`), and no piece becomes a dot, a double dot or nothing on the way.  Taken for
a path again, what is shown of a path therefore means the same with each name decoded
(`components_ofText_text`).

### Design decisions

**Three views of a name.**  `shown` is the text for whoever looks at it, `ofText` takes a text for
bytes, and `decoded` is the one after the other: the bytes that come out if a name is shown and taken
for a name again.  Whether anything was lost is `IsText`, and it is decidable by comparing.

**Laws for single bytes.**  Only slashes, dots and dashes matter to those who take paths apart, and all
are bytes below `0x80`.  Decoding divides at such a byte and makes no new one, so each fact about
pieces, heads and components is reduced to one about a single byte.
-/

namespace LintSuite

open Text

namespace RawText

@[simp] theorem toList_shown (bytes : RawText) : bytes.shown.toList = Utf8.decodeLossy bytes :=
  String.toList_ofList

theorem encode_cons (c : Char) (cs : List Char) :
    Utf8.encode (c :: cs) = String.utf8EncodeChar c ++ Utf8.encode cs :=
  List.flatMap_cons

/-- **A text is shown as it is.** -/
@[simp] theorem shown_ofText (text : String) : (ofText text).shown = text := by
  rw [shown, ofText, Utf8.decodeLossy_encode, String.ofList_toList]

theorem ofText_injective : Function.Injective ofText :=
  Function.LeftInverse.injective shown_ofText

@[simp] theorem ofText_inj {a b : String} : ofText a = ofText b ↔ a = b :=
  ofText_injective.eq_iff

theorem ofText_append (a b : String) : ofText (a ++ b) = ofText a ++ ofText b := by
  rw [ofText, String.toList_append, Utf8.encode, List.flatMap_append]
  rfl

/-- Without a replacement character in front, a text was read from its own bytes. -/
theorem eq_encode_of_readsAs {bytes : RawText} {text : List Char}
    (h : Utf8.ReadsAs bytes text) (htext : Utf8.replacement ∉ text) : bytes = Utf8.encode text := by
  induction h with
  | nil => rfl
  | char c _ ih =>
      rw [List.mem_cons, not_or] at htext
      rw [encode_cons, ← ih htext.2]
  | subpart _ _ _ => exact absurd List.mem_cons_self htext

/-- **A text without replacement characters** is shown for its own bytes and for no others. -/
theorem shown_eq_iff {bytes : RawText} {text : String} (h : Utf8.replacement ∉ text.toList) :
    bytes.shown = text ↔ bytes = ofText text := by
  constructor
  · rintro rfl
    rw [toList_shown] at h
    have hbytes := eq_encode_of_readsAs (Utf8.readsAs_decodeLossy bytes) h
    rw [ofText, toList_shown, ← hbytes]
  · rintro rfl
    exact shown_ofText text

@[simp] theorem shown_eq_empty_iff {bytes : RawText} : bytes.shown = "" ↔ bytes = [] :=
  shown_eq_iff (show Utf8.replacement ∉ ("" : String).toList by decide)

/-- **What is shown starts with a character of one byte exactly if the bytes do.** -/
theorem head?_shown_iff {b : UInt8} (hb : b.toNat < 0x80) {bytes : RawText} :
    bytes.shown.toList.head? = some (Char.ofNat b.toNat) ↔ bytes.head? = some b := by
  rw [toList_shown]
  constructor
  · intro h
    obtain ⟨more, hmore⟩ := List.head?_eq_some_iff.mp h
    have hread := Utf8.readsAs_decodeLossy bytes
    rw [hmore] at hread
    generalize hfirst : Char.ofNat b.toNat = first at hread
    cases hread with
    | char _ _ =>
        rw [← hfirst, Utf8.encodeChar_of_one hb]
        rfl
    | subpart _ _ =>
        have hnumber := Utf8.toNat_ofNat_ascii hb
        rw [hfirst] at hnumber
        rw [← hnumber] at hb
        exact absurd hb (by decide)
  · intro h
    obtain ⟨more, rfl⟩ := List.head?_eq_some_iff.mp h
    have hread := Utf8.decodeLossy_append_cons [] hb more
    rw [List.nil_append] at hread
    rw [hread]
    rfl

/-- What is shown for some bytes before a slash and some behind it. -/
theorem shown_append_slash (bs ds : RawText) :
    (bs ++ slash :: ds).shown = bs.shown ++ "/" ++ ds.shown := by
  rw [← String.toList_inj, String.toList_append, String.toList_append, toList_shown, toList_shown,
    toList_shown, Utf8.decodeLossy_append_cons bs (by decide), List.append_assoc]
  rfl

/-- The bytes of what is shown. -/
abbrev decoded (bytes : RawText) : RawText := ofText bytes.shown

/-- **Whether some bytes are a text**: they are the bytes of what is shown for them. -/
def IsText (bytes : RawText) : Prop := bytes.decoded = bytes

theorem isText_iff {bytes : RawText} : bytes.IsText ↔ ∃ text, bytes = ofText text := by
  constructor
  · exact fun h => ⟨bytes.shown, h.symm⟩
  · rintro ⟨text, rfl⟩
    rw [IsText, decoded, shown_ofText]

/-- Decoding again changes nothing. -/
theorem isText_decoded (bytes : RawText) : bytes.decoded.IsText :=
  isText_iff.mpr ⟨_, rfl⟩

theorem decoded_append_slash (bs ds : RawText) :
    (bs ++ slash :: ds).decoded = bs.decoded ++ slash :: ds.decoded := by
  rw [decoded, shown_append_slash, ofText_append, ofText_append, List.append_assoc]
  rfl

theorem decoded_eq_ofText_iff {bytes : RawText} {text : String}
    (h : Utf8.replacement ∉ text.toList) : bytes.decoded = ofText text ↔ bytes = ofText text := by
  rw [decoded, ofText_inj, shown_eq_iff h]

@[simp] theorem decoded_nil : decoded [] = [] := rfl

theorem decoded_eq_nil_iff {bytes : RawText} : bytes.decoded = [] ↔ bytes = [] :=
  decoded_eq_ofText_iff (show Utf8.replacement ∉ ("" : String).toList by decide)

theorem decoded_eq_dot_iff {bytes : RawText} : bytes.decoded = [dot] ↔ bytes = [dot] :=
  decoded_eq_ofText_iff (show Utf8.replacement ∉ ("." : String).toList by decide)

theorem decoded_eq_dots_iff {bytes : RawText} : bytes.decoded = [dot, dot] ↔ bytes = [dot, dot] :=
  decoded_eq_ofText_iff (show Utf8.replacement ∉ (".." : String).toList by decide)

/-- Decoding makes no slash. -/
theorem slash_mem_decoded_iff {bytes : RawText} : slash ∈ bytes.decoded ↔ slash ∈ bytes := by
  have hdivided {bs : RawText} (h : slash ∈ bs) : slash ∈ bs.decoded := by
    obtain ⟨before, behind, rfl⟩ := List.append_of_mem h
    rw [decoded_append_slash]
    exact List.mem_append_right _ List.mem_cons_self
  refine ⟨fun h => ?_, hdivided⟩
  -- A slash in the bytes of a text is a slash of the text, and that stands for the byte alone.
  have hread : Char.ofNat slash.toNat ∈ Utf8.decodeLossy bytes.decoded := by
    obtain ⟨before, behind, hsplit⟩ := List.append_of_mem h
    rw [hsplit, Utf8.decodeLossy_append_cons before (by decide)]
    exact List.mem_append_right _ List.mem_cons_self
  rw [← toList_shown, shown_ofText, toList_shown] at hread
  exact Utf8.mem_of_mem_decodeLossy (by decide) (by decide) hread

end RawText

open RawText

/-- A component with its name decoded. -/
def Component.decoded : Component → Component
  | .name bytes => .name bytes.decoded
  | c => c

namespace Path

/-- **Decoding works piece by piece.** -/
theorem segments_decoded (bs : RawText) : segments bs.decoded = (segments bs).map decoded := by
  rw [← joined_segments bs]
  have hslash : ∀ s ∈ segments bs, slash ∉ s := fun s hs => notMem_of_mem_segments hs
  rw [segments_joined (segments_ne_nil bs) hslash]
  have hne := segments_ne_nil bs
  generalize segments bs = ss at hslash hne
  induction ss with
  | nil => exact absurd rfl hne
  | cons s ss ih =>
      obtain ⟨hs, hss⟩ := List.forall_mem_cons.mp hslash
      have hs' : slash ∉ s.decoded := mt slash_mem_decoded_iff.mp hs
      by_cases hmore : ss = []
      · subst hmore
        exact segments_of_notMem hs'
      · rw [joined_cons hmore, decoded_append_slash, segments_append_slash, ih hss hmore,
          segments_of_notMem hs']
        rfl

theorem isTrivial_decoded (s : RawText) : isTrivial s.decoded = isTrivial s := by
  rw [Bool.eq_iff_iff, isTrivial, isTrivial, Bool.or_eq_true, Bool.or_eq_true, beq_iff_eq, beq_iff_eq,
    beq_iff_eq, beq_iff_eq, decoded_eq_nil_iff, decoded_eq_dot_iff]

theorem componentOf_decoded (s : RawText) : componentOf s.decoded = (componentOf s).decoded := by
  rw [componentOf, componentOf]
  by_cases h : s = [dot, dot]
  · rw [if_pos (decoded_eq_dots_iff.mpr h), if_pos h]
    rfl
  · rw [if_neg (mt decoded_eq_dots_iff.mp h), if_neg h]
    rfl

theorem startOf_map_decoded (ss : List RawText) : startOf (ss.map decoded) = startOf ss := by
  cases ss with
  | nil => rfl
  | cons s ss =>
      rw [List.map_cons, startOf, startOf]
      simp only [decoded_eq_dot_iff, decoded_eq_nil_iff, ne_eq, List.map_eq_nil_iff]

theorem named_map_decoded (ss : List RawText) :
    named (ss.map decoded) = (named ss).map Component.decoded := by
  rw [named, named, List.filter_map, List.map_map, List.map_map]
  have hfilter : (fun s => !isTrivial s) ∘ decoded = fun s => !isTrivial s := by
    funext s
    exact congrArg _ (isTrivial_decoded s)
  rw [hfilter]
  exact List.map_congr_left fun s _ => componentOf_decoded s

/-- A name that is decoded is a name. -/
theorem IsName.decoded {name : RawText} (h : IsName name) : IsName name.decoded where
  ne_empty := mt decoded_eq_nil_iff.mp h.ne_empty
  ne_here := mt decoded_eq_dot_iff.mp h.ne_here
  ne_up := mt decoded_eq_dots_iff.mp h.ne_up
  no_slash := mt slash_mem_decoded_iff.mp h.no_slash

/-- **A path as it is shown**, taken for a path again, means the same with each name decoded. -/
theorem components_ofText_text (p : Path) :
    (ofText p.text).components = p.components.map Component.decoded := by
  have hhead : head p.bytes.decoded = head p.bytes := by
    rw [head, head, segments_decoded, startOf_map_decoded]
  have hcomponents : (headComponents p.bytes).map Component.decoded = headComponents p.bytes := by
    rcases startOf_cases (segments p.bytes) with hs | hs | hs
    · rw [headComponents_of_head_nil hs]
      rfl
    · rw [headComponents_of_head_slash hs]
      rfl
    · rw [headComponents_of_head_dot hs]
      rfl
  show components ⟨p.bytes.decoded⟩ = _
  rw [components_eq, components_eq, List.map_append, hcomponents, headComponents, hhead,
    segments_decoded, named_map_decoded]
  rfl

end Path

end LintSuite
