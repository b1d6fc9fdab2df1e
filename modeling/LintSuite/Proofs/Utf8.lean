import Mathlib
import LintSuite.Text.Utf8

/-!
# Reading back what was encoded

The bytes of a text are read as its characters, one piece for each (`pieces_encode`), so a strict
reading gives the text back (`decode?_encode`).  Each character is read on its own: the first of its
bytes says how many are owed and which second byte is well-formed (`start_of_two`,
`start_of_three`, `start_of_four`), and every later one adds six bits (`step_owed`, `step_last`).

Characters of one byte are read where their bytes stand, and nowhere else, also among bytes that are
no text: no bytes that complete a longer character can leave too few bits for it
(`Pending.IsLong`).  What is said of all first bytes is said of the five kinds there are
(`starts_start`).

### Design decisions

**States instead of lookahead.**  The decoder takes one byte at a time and keeps what it knows of the
character that is under way: how many bytes are owed, which range the next one must be in, and the bits
so far.  Facts about whole characters are built from two facts about one byte (`step_owed`,
`step_last`), for two, three and four bytes alike.

**An invariant for all states.**  `Pending.IsLong` holds of every state that reading comes to.  It says
that what is completed is no character of one byte, and so that such characters come from single bytes
only; forgiving reading inherits this (`mem_of_mem_decodeLossy`).
-/

namespace LintSuite.Text.Utf8

/-- A byte in the range of the character under way, more of which are owed. -/
theorem step_owed {owed low high value n : Nat} (howed : 1 < owed) (hn : n < 0x40)
    (hlow : low ≤ n + 0x80) (hhigh : n + 0x80 ≤ high) :
    step (some ⟨owed, low, high, value⟩) (UInt8.ofNat (n + 0x80)) =
      ([], some ⟨owed - 1, 0x80, 0xBF, value * 64 + n⟩) := by
  have hbyte : (UInt8.ofNat (n + 0x80)).toNat = n + 0x80 :=
    UInt8.toNat_ofNat_of_lt' (by simp only [UInt8.size]; omega)
  simp only [step]
  rw [hbyte, if_pos ⟨hlow, hhigh⟩, if_neg (by omega), Nat.add_sub_cancel]

/-- The last byte of the character under way. -/
theorem step_last {low high value n : Nat} (hn : n < 0x40) (hlow : low ≤ n + 0x80)
    (hhigh : n + 0x80 ≤ high) :
    step (some ⟨1, low, high, value⟩) (UInt8.ofNat (n + 0x80)) =
      ([some (Char.ofNat (value * 64 + n))], none) := by
  have hbyte : (UInt8.ofNat (n + 0x80)).toNat = n + 0x80 :=
    UInt8.toNat_ofNat_of_lt' (by simp only [UInt8.size]; omega)
  simp only [step]
  rw [hbyte, if_pos ⟨hlow, hhigh⟩, if_pos le_rfl, Nat.add_sub_cancel]

/-- The first of two bytes. -/
theorem start_of_two {v : Nat} (hlow : 0x7F < v) (hhigh : v ≤ 0x7FF) :
    start (UInt8.ofNat (v / 64 % 0x20 + 0xC0)) = ([], some ⟨1, 0x80, 0xBF, v / 64⟩) := by
  have hbyte : (UInt8.ofNat (v / 64 % 0x20 + 0xC0)).toNat = v / 64 % 0x20 + 0xC0 :=
    UInt8.toNat_ofNat_of_lt' (by simp only [UInt8.size]; omega)
  simp only [start]
  rw [hbyte, if_neg (by omega), if_neg (by omega), if_pos (by omega), Nat.add_sub_cancel,
    Nat.mod_eq_of_lt (by omega)]

/-- The first of three bytes.  The range of the second keeps out what two bytes suffice for, and the
surrogates. -/
theorem start_of_three {v : Nat} (hlow : 0x7FF < v) (hhigh : v ≤ 0xFFFF)
    (hvalid : v < 0xD800 ∨ 0xDFFF < v) :
    ∃ low high, start (UInt8.ofNat (v / 4096 % 0x10 + 0xE0)) =
        ([], some ⟨2, low, high, v / 4096⟩) ∧
      low ≤ v / 64 % 0x40 + 0x80 ∧ v / 64 % 0x40 + 0x80 ≤ high := by
  have hbyte : (UInt8.ofNat (v / 4096 % 0x10 + 0xE0)).toNat = v / 4096 % 0x10 + 0xE0 :=
    UInt8.toNat_ofNat_of_lt' (by simp only [UInt8.size]; omega)
  simp only [start, beq_iff_eq]
  rw [hbyte, if_neg (by omega), if_neg (by omega), if_neg (by omega)]
  by_cases hfirst : v / 4096 = 0
  · rw [if_pos (by omega), hfirst]
    exact ⟨_, _, rfl, by omega, by omega⟩
  by_cases hlast : v / 4096 = 0xD
  · rw [if_neg (by omega), if_pos (by omega), hlast]
    exact ⟨_, _, rfl, by omega, by omega⟩
  · rw [if_neg (by omega), if_neg (by omega), if_pos (by omega), Nat.add_sub_cancel,
      Nat.mod_eq_of_lt (by omega)]
    exact ⟨_, _, rfl, by omega, by omega⟩

/-- The first of four bytes.  The range of the second keeps out what three bytes suffice for, and
what is past the last code point. -/
theorem start_of_four {v : Nat} (hlow : 0xFFFF < v) (hhigh : v < 0x110000) :
    ∃ low high, start (UInt8.ofNat (v / 262144 % 0x08 + 0xF0)) =
        ([], some ⟨3, low, high, v / 262144⟩) ∧
      low ≤ v / 4096 % 0x40 + 0x80 ∧ v / 4096 % 0x40 + 0x80 ≤ high := by
  have hbyte : (UInt8.ofNat (v / 262144 % 0x08 + 0xF0)).toNat = v / 262144 % 0x08 + 0xF0 :=
    UInt8.toNat_ofNat_of_lt' (by simp only [UInt8.size]; omega)
  simp only [start, beq_iff_eq]
  rw [hbyte, if_neg (by omega), if_neg (by omega), if_neg (by omega), if_neg (by omega),
    if_neg (by omega), if_neg (by omega)]
  by_cases hfirst : v / 262144 = 0
  · rw [if_pos (by omega), hfirst]
    exact ⟨_, _, rfl, by omega, by omega⟩
  by_cases hlast : v / 262144 = 4
  · rw [if_neg (by omega), if_neg (by omega), if_pos (by omega), hlast]
    exact ⟨_, _, rfl, by omega, by omega⟩
  · rw [if_neg (by omega), if_pos (by omega), Nat.add_sub_cancel, Nat.mod_eq_of_lt (by omega)]
    exact ⟨_, _, rfl, by omega, by omega⟩

/-- **The bytes of a character are read as that character**, whatever follows them. -/
theorem piecesFrom_encodeChar (c : Char) (bytes : List UInt8) :
    piecesFrom none (String.utf8EncodeChar c ++ bytes) = some c :: piecesFrom none bytes := by
  have hvalid : c.val.toNat < 0xD800 ∨ 0xDFFF < c.val.toNat ∧ c.val.toNat < 0x110000 := c.valid
  have hchar : Char.ofNat c.val.toNat = c := c.ofNat_toNat
  simp only [String.utf8EncodeChar]
  generalize c.val.toNat = v at hvalid hchar ⊢
  by_cases hone : v ≤ 0x7F
  · have hbyte : (UInt8.ofNat v).toNat = v :=
      UInt8.toNat_ofNat_of_lt' (by simp only [UInt8.size]; omega)
    rw [if_pos hone, List.singleton_append, piecesFrom_cons, step,
      start_ascii (by rw [hbyte]; omega), hbyte, hchar]
    rfl
  rw [if_neg hone]
  by_cases htwo : v ≤ 0x7FF
  · rw [if_pos htwo, List.cons_append, List.cons_append, piecesFrom_cons, step,
      start_of_two (by omega) htwo, piecesFrom_cons,
      step_last (by omega) (by omega) (by omega), Nat.div_add_mod', hchar]
    rfl
  rw [if_neg htwo]
  by_cases hthree : v ≤ 0xFFFF
  · obtain ⟨low, high, hstart, hlow, hhigh⟩ :=
      start_of_three (v := v) (by omega) hthree (by omega)
    have hbits : (v / 4096 * 64 + v / 64 % 64) * 64 + v % 64 = v := by omega
    rw [if_pos hthree]
    simp only [List.cons_append, List.nil_append, piecesFrom_cons]
    rw [step, hstart, step_owed (by omega) (by omega) hlow hhigh,
      step_last (by omega) (by omega) (by omega), hbits, hchar]
    rfl
  · obtain ⟨low, high, hstart, hlow, hhigh⟩ :=
      start_of_four (v := v) (by omega) (by omega)
    have hbits : ((v / 262144 * 64 + v / 4096 % 64) * 64 + v / 64 % 64) * 64 + v % 64 = v := by
      omega
    rw [if_neg hthree]
    simp only [List.cons_append, List.nil_append, piecesFrom_cons]
    rw [step, hstart, step_owed (by omega) (by omega) hlow hhigh,
      step_owed (by omega) (by omega) (by omega) (by omega),
      step_last (by omega) (by omega) (by omega), hbits, hchar]
    rfl

/-- **The pieces of an encoded text are its characters.** -/
theorem pieces_encode (cs : List Char) : pieces (encode cs) = cs.map some := by
  induction cs with
  | nil => rfl
  | cons c cs ih =>
      rw [encode, List.flatMap_cons, pieces, piecesFrom_encodeChar, ← encode, ← pieces, ih]
      rfl

/-- An encoded text is read back, forgivingly. -/
theorem decodeLossy_encode (cs : List Char) : decodeLossy (encode cs) = cs := by
  rw [decodeLossy, pieces_encode, List.map_map]
  exact List.map_id cs

/-- **An encoded text is read back**, strictly. -/
theorem decode?_encode (cs : List Char) : decode? (encode cs) = some cs := by
  rw [decode?, pieces_encode]
  induction cs with
  | nil => rfl
  | cons c cs ih => simp [List.mapM_cons, ih]

/-! ### First bytes -/

/-- **What a first byte begins**: a character of one byte, nothing, or a character of two, three or
four bytes, with the range of the second. -/
inductive Starts (b : UInt8) : List Piece × Option Pending → Prop
  /-- A character. -/
  | one (h : b.toNat < 0x80) : Starts b ([some (Char.ofNat b.toNat)], none)
  /-- Nothing. -/
  | alone : Starts b ([none], none)
  /-- Two bytes. -/
  | two (hleast : 0xC2 ≤ b.toNat) (hmost : b.toNat < 0xE0) :
      Starts b ([], some ⟨1, 0x80, 0xBF, b.toNat - 0xC0⟩)
  /-- Three bytes. -/
  | three {low high : Nat} (hleast : 0xE0 ≤ b.toNat) (hmost : b.toNat < 0xF0) (hlow : 0x80 ≤ low)
      (hrange : low ≤ high) (hhigh : high ≤ 0xBF) (hfirst : b.toNat = 0xE0 → 0xA0 ≤ low)
      (hlast : b.toNat = 0xED → high ≤ 0x9F) :
      Starts b ([], some ⟨2, low, high, b.toNat - 0xE0⟩)
  /-- Four bytes. -/
  | four {low high : Nat} (hleast : 0xF0 ≤ b.toNat) (hmost : b.toNat ≤ 0xF4) (hlow : 0x80 ≤ low)
      (hrange : low ≤ high) (hhigh : high ≤ 0xBF) (hfirst : b.toNat = 0xF0 → 0x90 ≤ low)
      (hlast : b.toNat = 0xF4 → high ≤ 0x8F) :
      Starts b ([], some ⟨3, low, high, b.toNat - 0xF0⟩)

theorem starts_start (b : UInt8) : Starts b (start b) := by
  simp only [start, beq_iff_eq]
  by_cases hone : b.toNat < 0x80
  · rw [if_pos hone]
    exact .one hone
  rw [if_neg hone]
  by_cases halone : b.toNat < 0xC2
  · rw [if_pos halone]
    exact .alone
  rw [if_neg halone]
  by_cases htwo : b.toNat < 0xE0
  · rw [if_pos htwo]
    exact .two (by omega) htwo
  rw [if_neg htwo]
  by_cases hthree : b.toNat < 0xF0
  · by_cases hfirst : b.toNat = 0xE0
    · have hvalue : 0 = b.toNat - 0xE0 := by omega
      rw [if_pos hfirst, hvalue]
      exact .three (by omega) hthree (by omega) (by omega) (by omega) (by omega) (by omega)
    rw [if_neg hfirst]
    by_cases hlast : b.toNat = 0xED
    · have hvalue : 0xD = b.toNat - 0xE0 := by omega
      rw [if_pos hlast, hvalue]
      exact .three (by omega) hthree (by omega) (by omega) (by omega) (by omega) (by omega)
    rw [if_neg hlast, if_pos hthree]
    exact .three (by omega) hthree (by omega) (by omega) (by omega) (by omega) (by omega)
  rw [if_neg (by omega), if_neg (by omega), if_neg hthree]
  by_cases hfirst : b.toNat = 0xF0
  · have hvalue : 0 = b.toNat - 0xF0 := by omega
    rw [if_pos hfirst, hvalue]
    exact .four (by omega) (by omega) (by omega) (by omega) (by omega) (by omega) (by omega)
  rw [if_neg hfirst]
  by_cases hfour : b.toNat < 0xF4
  · rw [if_pos hfour]
    exact .four (by omega) (by omega) (by omega) (by omega) (by omega) (by omega) (by omega)
  rw [if_neg hfour]
  by_cases hlast : b.toNat = 0xF4
  · have hvalue : 4 = b.toNat - 0xF0 := by omega
    rw [if_pos hlast, hvalue]
    exact .four (by omega) (by omega) (by omega) (by omega) (by omega) (by omega) (by omega)
  · rw [if_neg hlast]
    exact .alone

/-! ### Characters of one byte -/

/-- **A character under way is none of one byte**, whatever bytes complete it: with the last of them
it gets the bits for that, and before that enough of them. -/
structure Pending.IsLong (p : Pending) : Prop where
  /-- A byte that continues it is none of the first half. -/
  low : 0x80 ≤ p.low
  /-- With the last byte. -/
  last : p.owed ≤ 1 → 0x80 ≤ p.value * 0x40 + (p.low - 0x80)
  /-- With a byte before the last. -/
  more : 1 < p.owed → 2 ≤ p.value * 0x40 + (p.low - 0x80)

/-- What a byte begins is no character of one byte. -/
theorem isLong_start {b : UInt8} {p : Pending} (h : (start b).2 = some p) : p.IsLong := by
  have hstarts := starts_start b
  generalize start b = read at hstarts h
  cases hstarts with
  | one => cases h
  | alone => cases h
  | two =>
      obtain rfl := Option.some.inj h
      constructor <;> dsimp only <;> omega
  | three =>
      obtain rfl := Option.some.inj h
      constructor <;> dsimp only <;> omega
  | four =>
      obtain rfl := Option.some.inj h
      constructor <;> dsimp only <;> omega

/-- What a byte continues is none. -/
theorem isLong_step {state : Option Pending} (hstate : ∀ p ∈ state, p.IsLong) {b : UInt8}
    {p : Pending} (h : (step state b).2 = some p) : p.IsLong := by
  cases state with
  | none => exact isLong_start h
  | some q =>
      obtain ⟨hlow, -, hmore⟩ := hstate q rfl
      rw [step] at h
      dsimp only at h
      split_ifs at h with hrange hlast
      · obtain rfl := Option.some.inj h
        have hbits := hmore (by omega)
        constructor <;> dsimp only <;> omega
      · exact isLong_start h

/-- The character of a piece, as forgiving reading has it. -/
def shownPiece (piece : Piece) : Char := piece.getD replacement

/-- A number that is no code point stands for the null character. -/
theorem eq_of_toNat_ofNat {n : Nat} (hne : (Char.ofNat n).toNat ≠ 0) :
    (Char.ofNat n).toNat = n := by
  rw [Char.toNat_ofNat] at hne ⊢
  split_ifs at hne ⊢
  · rfl
  · exact absurd rfl hne

/-- A character of one byte that stands where a byte is read afresh is that of the byte. -/
theorem toNat_eq_of_mem_start {b : UInt8} {c : Char} (hc : c ∈ (start b).1.map shownPiece)
    (hascii : c.toNat < 0x80) (hne : c.toNat ≠ 0) : c.toNat = b.toNat := by
  have hstarts := starts_start b
  generalize start b = read at hstarts hc
  cases hstarts with
  | one h =>
      obtain rfl := List.mem_singleton.mp hc
      exact eq_of_toNat_ofNat hne
  | alone =>
      obtain rfl := List.mem_singleton.mp hc
      exact absurd hascii (by decide)
  | two => cases hc
  | three => cases hc
  | four => cases hc
/-- **A character of one byte stands where its byte does.** -/
theorem toNat_eq_of_mem_step {state : Option Pending} (hstate : ∀ p ∈ state, p.IsLong) {b : UInt8}
    {c : Char} (hc : c ∈ (step state b).1.map shownPiece) (hascii : c.toNat < 0x80)
    (hne : c.toNat ≠ 0) : c.toNat = b.toNat := by
  cases state with
  | none => exact toNat_eq_of_mem_start hc hascii hne
  | some p =>
      obtain ⟨hlow, hlast, -⟩ := hstate p rfl
      rw [step] at hc
      dsimp only at hc
      split_ifs at hc with hrange howed
      · simp only [List.map_cons, List.map_nil, List.mem_singleton, shownPiece,
          Option.getD_some] at hc
        rw [hc] at hascii hne
        rw [eq_of_toNat_ofNat hne] at hascii
        have hlong := hlast howed
        omega
      · simp at hc
      · rw [List.map_cons, List.mem_cons] at hc
        rcases hc with rfl | hc
        · exact absurd hascii (by decide)
        · exact toNat_eq_of_mem_start hc hascii hne

/-- A byte below `0x80` ends what is under way, and is read afresh. -/
theorem step_ascii {state : Option Pending} (hstate : ∀ p ∈ state, p.IsLong) {b : UInt8}
    (hb : b.toNat < 0x80) :
    step state b = (finish state ++ [some (Char.ofNat b.toNat)], none) := by
  cases state with
  | none => simp [step, start_ascii hb, finish]
  | some p =>
      have hlow := (hstate p rfl).low
      rw [step]
      dsimp only
      rw [if_neg (by omega), start_ascii hb]
      rfl

/-- A character of one byte is read only where there is such a byte. -/
theorem exists_of_mem_piecesFrom {c : Char} (hascii : c.toNat < 0x80) (hne : c.toNat ≠ 0)
    (bytes : List UInt8) :
    ∀ state : Option Pending, (∀ p ∈ state, p.IsLong) →
      c ∈ (piecesFrom state bytes).map shownPiece → ∃ b ∈ bytes, c.toNat = b.toNat := by
  induction bytes with
  | nil =>
      intro state _ hc
      cases state with
      | none => simp [finish] at hc
      | some p =>
          obtain rfl : c = replacement := by simpa [finish, shownPiece] using hc
          exact absurd hascii (by decide)
  | cons b bytes ih =>
      intro state hstate hc
      rw [piecesFrom_cons, List.map_append, List.mem_append] at hc
      rcases hc with hc | hc
      · exact ⟨b, List.mem_cons_self, toNat_eq_of_mem_step hstate hc hascii hne⟩
      · obtain ⟨d, hd, hcd⟩ := ih _ (fun p hp => isLong_step hstate hp) hc
        exact ⟨d, List.mem_cons_of_mem b hd, hcd⟩

/-- Reading some bytes leads to a state from which the others are read. -/
theorem exists_piecesFrom_append (bytes : List UInt8) :
    ∀ state : Option Pending, (∀ p ∈ state, p.IsLong) →
      ∃ before after, (∀ p ∈ after, Pending.IsLong p) ∧
        ∀ more, piecesFrom state (bytes ++ more) = before ++ piecesFrom after more := by
  induction bytes with
  | nil => exact fun state hstate => ⟨[], state, hstate, fun more => rfl⟩
  | cons b bytes ih =>
      intro state hstate
      obtain ⟨before, after, hafter, hmore⟩ :=
        ih (step state b).2 fun p hp => isLong_step hstate hp
      refine ⟨(step state b).1 ++ before, after, hafter, fun more => ?_⟩
      rw [List.cons_append, piecesFrom_cons, hmore, List.append_assoc]

/-- **A byte below `0x80` divides what is read**: what stands before it and what follows it are read
on their own. -/
theorem decodeLossy_append_cons (bytes : List UInt8) {b : UInt8} (hb : b.toNat < 0x80)
    (more : List UInt8) :
    decodeLossy (bytes ++ b :: more) =
      decodeLossy bytes ++ Char.ofNat b.toNat :: decodeLossy more := by
  obtain ⟨before, after, hafter, hmore⟩ := exists_piecesFrom_append bytes none (by simp)
  have hbytes : pieces bytes = before ++ finish after := by simpa [pieces] using hmore []
  have hall : pieces (bytes ++ b :: more) =
      before ++ (finish after ++ some (Char.ofNat b.toNat) :: pieces more) := by
    rw [pieces, hmore, piecesFrom_cons, step_ascii hafter hb, List.append_assoc]
    rfl
  rw [decodeLossy, decodeLossy, hbytes, hall]
  simp [decodeLossy]

/-- A byte below `0x80` at the end. -/
theorem decodeLossy_append_ascii (bytes : List UInt8) {b : UInt8} (hb : b.toNat < 0x80) :
    decodeLossy (bytes ++ [b]) = decodeLossy bytes ++ [Char.ofNat b.toNat] :=
  decodeLossy_append_cons bytes hb []

/-- The number of a character of one byte. -/
theorem toNat_ofNat_ascii {b : UInt8} (hb : b.toNat < 0x80) :
    (Char.ofNat b.toNat).toNat = b.toNat := by
  rw [Char.toNat_ofNat, if_pos (.inl (by omega))]

/-- The character of a byte below `0x80` stands for that byte alone. -/
theorem mem_of_mem_decodeLossy {b : UInt8} (hb : b.toNat < 0x80) (hne : b.toNat ≠ 0)
    {bytes : List UInt8} (h : Char.ofNat b.toNat ∈ decodeLossy bytes) : b ∈ bytes := by
  have hnumber := toNat_ofNat_ascii hb
  obtain ⟨d, hd, hbyte⟩ := exists_of_mem_piecesFrom (by rwa [hnumber]) (by rwa [hnumber]) bytes none
    (by simp) h
  rw [hnumber] at hbyte
  exact UInt8.toNat_inj.mp hbyte ▸ hd

/-- A byte completes a piece, or something is under way behind it. -/
theorem piecesFrom_singleton_ne_nil (state : Option Pending) (b : UInt8) :
    piecesFrom state [b] ≠ [] := by
  have hstart : (start b).1 = [] → finish (start b).2 ≠ [] := by
    have hstarts := starts_start b
    generalize start b = read at hstarts ⊢
    cases hstarts <;> simp [finish]
  rw [piecesFrom_cons, piecesFrom_nil, ne_eq, List.append_eq_nil_iff]
  rintro ⟨hnone, hfinish⟩
  cases state with
  | none => exact hstart hnone hfinish
  | some p =>
      rw [step] at hnone hfinish
      dsimp only at hnone hfinish
      split_ifs at hnone hfinish
      all_goals simp [finish] at hnone hfinish

/-- **A text ends in a character of one byte exactly if its bytes do.** -/
theorem getLast?_decodeLossy_eq_ascii_iff {b : UInt8} (hb : b.toNat < 0x80) (hne : b.toNat ≠ 0)
    {bytes : List UInt8} :
    (decodeLossy bytes).getLast? = some (Char.ofNat b.toNat) ↔ bytes.getLast? = some b := by
  have hnumber := toNat_ofNat_ascii hb
  constructor
  · intro h
    rcases bytes.eq_nil_or_concat' with rfl | ⟨body, last, rfl⟩
    · cases h
    obtain ⟨before, after, hafter, hmore⟩ := exists_piecesFrom_append body none (by simp)
    have htail : ((piecesFrom after [last]).map shownPiece).getLast? =
        some (Char.ofNat b.toNat) := by
      have hsome : (piecesFrom after [last]).map shownPiece ≠ [] :=
        mt List.map_eq_nil_iff.mp (piecesFrom_singleton_ne_nil after last)
      have hdecoded : decodeLossy (body ++ [last]) =
          before.map shownPiece ++ (piecesFrom after [last]).map shownPiece := by
        rw [← List.map_append, ← hmore]
        rfl
      rwa [hdecoded, List.getLast?_append_of_ne_nil _ hsome] at h
    obtain ⟨d, hd, hbyte⟩ := exists_of_mem_piecesFrom (by rwa [hnumber]) (by rwa [hnumber]) [last]
      after hafter (List.mem_of_getLast? htail)
    rw [hnumber] at hbyte
    rw [List.getLast?_concat, ← List.mem_singleton.mp hd, UInt8.toNat_inj.mp hbyte]
  · intro h
    obtain ⟨body, rfl⟩ := List.getLast?_eq_some_iff.mp h
    rw [decodeLossy_append_ascii body hb]
    simp

/-- **A text ends in a line feed exactly if its bytes do.** -/
theorem getLast?_decodeLossy_eq_iff {bytes : List UInt8} :
    (decodeLossy bytes).getLast? = some '\n' ↔ bytes.getLast? = some 0x0A :=
  getLast?_decodeLossy_eq_ascii_iff (b := 0x0A) (by decide) (by decide)

end LintSuite.Text.Utf8
