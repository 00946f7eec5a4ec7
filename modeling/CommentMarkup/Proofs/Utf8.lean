/-
# Well-formed UTF-8

A character is written as a sequence of one to four bytes.  The first byte says how many there are,
and each of the others begins with the bits `10`; what is left of their bits is the code point.  Of
the sequences of this shape, those that are longer than the code point needs are no characters, and
neither are those of surrogates and of numbers above the last code point (`IsSequence`).

The decoder never looks at a code point to find that out: it goes by the first byte and by a range
for the second one.  Nevertheless it reads exactly the sequences of characters
(`isSequence_cons_iff`), so it undoes the encoder and accepts nothing else
(`decodeUtf8_eq_ok_iff`), and it accepts all that is well-formed (`exists_decodeUtf8_iff`).
-/
import CommentMarkup.Text.Encoding
import Mathlib.Data.Char
import Mathlib.Data.List.Basic
import Mathlib.Tactic.Lemma

namespace CommentMarkup.Encoding

/-- A byte that goes on with a sequence. -/
def IsTail (b : UInt8) : Prop := b.toNat / 0x40 = 0b10

/-- The six bits that such a byte adds to a code point. -/
def tailBits (b : UInt8) : Nat := b.toNat % 0x40

/-- A sequence of bytes for a code point. -/
inductive IsSequence : Bytes → Nat → Prop where
  /-- `0xxxxxxx` -/
  | one {a : UInt8} (first : a.toNat / 0x80 = 0) : IsSequence [a] a.toNat
  /-- `110xxxxx 10xxxxxx`, where one byte is not enough -/
  | two {a b : UInt8} {code : Nat} (first : a.toNat / 0x20 = 0b110) (tail : IsTail b)
      (bits : code = a.toNat % 0x20 * 0x40 + tailBits b) (shortest : 0x80 ≤ code) :
      IsSequence [a, b] code
  /-- `1110xxxx 10xxxxxx 10xxxxxx`, where two bytes are not enough, and no surrogate -/
  | three {a b c : UInt8} {code : Nat} (first : a.toNat / 0x10 = 0b1110) (tail₁ : IsTail b)
      (tail₂ : IsTail c)
      (bits : code = (a.toNat % 0x10 * 0x40 + tailBits b) * 0x40 + tailBits c)
      (shortest : 0x800 ≤ code) (character : code < 0xD800 ∨ 0xDFFF < code) :
      IsSequence [a, b, c] code
  /-- `11110xxx 10xxxxxx 10xxxxxx 10xxxxxx`, where three bytes are not enough, up to the last code
  point -/
  | four {a b c d : UInt8} {code : Nat} (first : a.toNat / 0x08 = 0b11110) (tail₁ : IsTail b)
      (tail₂ : IsTail c) (tail₃ : IsTail d)
      (bits : code
        = ((a.toNat % 0x08 * 0x40 + tailBits b) * 0x40 + tailBits c) * 0x40 + tailBits d)
      (shortest : 0x10000 ≤ code) (character : code ≤ 0x10FFFF) : IsSequence [a, b, c, d] code

/-- Bytes that are sequences of characters, one behind the other. -/
inductive IsWellFormed : Bytes → Prop where
  /-- There is none. -/
  | nil : IsWellFormed []
  /-- There is a first one. -/
  | append {sequence rest : Bytes} {code : Nat} (first : IsSequence sequence code)
      (h : IsWellFormed rest) : IsWellFormed (sequence ++ rest)

variable {sequence rest bytes tails : Bytes} {code offset n value : Nat} {a b low high : UInt8}
  {text : Text} {l : Lead}

/-! ### Sequences and characters -/

lemma tailBits_lt (b : UInt8) : tailBits b < 0x40 := Nat.mod_lt _ (by decide)

lemma IsTail.toNat_eq (h : IsTail b) : b.toNat = tailBits b + 0x80 := by
  unfold IsTail at h
  unfold tailBits
  omega

lemma isTail_ofNat (h : value < 0x40) : IsTail (UInt8.ofNat (value + 0x80)) := by
  rw [IsTail, UInt8.toNat_ofNat']
  omega

lemma tailBits_ofNat (h : value < 0x40) : tailBits (UInt8.ofNat (value + 0x80)) = value := by
  rw [tailBits, UInt8.toNat_ofNat']
  omega

lemma ofNat_eq (h : b.toNat = value) : UInt8.ofNat value = b := by
  rw [← h, UInt8.ofNat_toNat]

lemma toNat_ofNat_of_isValidChar (h : code.isValidChar) : (Char.ofNat code).toNat = code := by
  rw [Char.ofNat, dif_pos h]
  rfl

/-- A sequence is for a character. -/
lemma IsSequence.isValidChar (h : IsSequence sequence code) : code.isValidChar := by
  cases h with
  | one first => exact Or.inl (by omega)
  | @two a b _ first tail bits shortest =>
    have hb := tailBits_lt b
    exact Or.inl (by omega)
  | @three a b c _ first tail₁ tail₂ bits shortest character =>
    have hb := tailBits_lt b
    have hc := tailBits_lt c
    exact character.imp_right fun hcode => ⟨hcode, by omega⟩
  | four first tail₁ tail₂ tail₃ bits shortest character => exact Or.inr ⟨by omega, by omega⟩

/-- The encoder writes for a character a sequence for it. -/
lemma isSequence_utf8EncodeChar (c : Char) : IsSequence (String.utf8EncodeChar c) c.toNat := by
  have hvalid : c.toNat.isValidChar := c.valid
  have hval : c.val.toNat = c.toNat := rfl
  have hbits : ∀ v : Nat, v % 0x40 < 0x40 := fun v => Nat.mod_lt v (by decide)
  have hbyte : ∀ v : Nat, (UInt8.ofNat v).toNat = v % 2 ^ 8 := fun _ => UInt8.toNat_ofNat'
  simp only [String.utf8EncodeChar, hval]
  split
  · have hsame : (UInt8.ofNat c.toNat).toNat = c.toNat := by
      rw [hbyte]
      omega
    have hone : IsSequence [UInt8.ofNat c.toNat] (UInt8.ofNat c.toNat).toNat :=
      .one (by rw [hsame]; omega)
    rwa [hsame] at hone
  · split
    · refine .two ?_ (isTail_ofNat (hbits _)) ?_ (by omega)
      · rw [hbyte]
        omega
      · rw [tailBits_ofNat (hbits _), hbyte]
        omega
    · split
      · refine .three ?_ (isTail_ofNat (hbits _)) (isTail_ofNat (hbits _)) ?_ (by omega) (by omega)
        · rw [hbyte]
          omega
        · rw [tailBits_ofNat (hbits _), tailBits_ofNat (hbits _), hbyte]
          omega
      · refine .four ?_ (isTail_ofNat (hbits _)) (isTail_ofNat (hbits _)) (isTail_ofNat (hbits _))
          ?_ (by omega) (by omega)
        · rw [hbyte]
          omega
        · rw [tailBits_ofNat (hbits _), tailBits_ofNat (hbits _), tailBits_ofNat (hbits _), hbyte]
          omega

/-- There is only one sequence for a character. -/
lemma IsSequence.eq_utf8EncodeChar (h : IsSequence sequence code) :
    String.utf8EncodeChar (Char.ofNat code) = sequence := by
  have hcode : (Char.ofNat code).val.toNat = code := toNat_ofNat_of_isValidChar h.isValidChar
  simp only [String.utf8EncodeChar, hcode]
  cases h with
  | one first => rw [if_pos (by omega), UInt8.ofNat_toNat]
  | @two a b _ first tail bits shortest =>
    have hb := tail.toNat_eq
    have hb' := tailBits_lt b
    rw [if_neg (by omega), if_pos (by omega), ofNat_eq (b := a) (by omega),
      ofNat_eq (b := b) (by omega)]
  | @three a b c _ first tail₁ tail₂ bits shortest character =>
    have hb := tail₁.toNat_eq
    have hb' := tailBits_lt b
    have hc := tail₂.toNat_eq
    have hc' := tailBits_lt c
    rw [if_neg (by omega), if_neg (by omega), if_pos (by omega), ofNat_eq (b := a) (by omega),
      ofNat_eq (b := b) (by omega), ofNat_eq (b := c) (by omega)]
  | @four a b c d _ first tail₁ tail₂ tail₃ bits shortest character =>
    have hb := tail₁.toNat_eq
    have hb' := tailBits_lt b
    have hc := tail₂.toNat_eq
    have hc' := tailBits_lt c
    have hd := tail₃.toNat_eq
    have hd' := tailBits_lt d
    rw [if_neg (by omega), if_neg (by omega), if_neg (by omega), ofNat_eq (b := a) (by omega),
      ofNat_eq (b := b) (by omega), ofNat_eq (b := c) (by omega), ofNat_eq (b := d) (by omega)]

/-- Well-formed bytes are those that are written for a text. -/
theorem isWellFormed_iff : IsWellFormed bytes ↔ ∃ text, utf8Bytes text = bytes := by
  constructor
  · intro h
    induction h with
    | nil => exact ⟨[], rfl⟩
    | @append sequence rest code first _ ih =>
      obtain ⟨text, rfl⟩ := ih
      exact ⟨Char.ofNat code :: text, by simp [utf8Bytes, first.eq_utf8EncodeChar]⟩
  · rintro ⟨text, rfl⟩
    induction text with
    | nil => exact .nil
    | cons c text ih => exact .append (isSequence_utf8EncodeChar c) ih

/-! ### What the decoder goes by -/

/-- A code point to which some bytes add their bits. -/
def withTails (value : Nat) (tails : Bytes) : Nat :=
  tails.foldl (fun value b => value * 0x40 + tailBits b) value

/-- What follows a first byte, and the code point that comes of it, as the first byte says. -/
structure Lead.Completes (l : Lead) (tails : Bytes) (code : Nat) : Prop where
  /-- There are as many bytes as it says. -/
  length : tails.length = l.following
  /-- They go on with a sequence. -/
  isTail : ∀ b ∈ tails, IsTail b
  /-- The next byte is in the range that it says. -/
  second : ∀ b ∈ tails.head?, l.low ≤ b ∧ b ≤ l.high
  /-- They add their bits to its own. -/
  bits : withTails l.bits tails = code

/-- The first bytes and what they say. -/
inductive Leads (a : UInt8) : Lead → Prop where
  /-- A character of one byte. -/
  | one (h : a.toNat ≤ 0x7F) : Leads a ⟨a.toNat, 0, 0x80, 0xBF⟩
  /-- One of two bytes. -/
  | two (h : 0xC2 ≤ a.toNat) (h' : a.toNat ≤ 0xDF) : Leads a ⟨a.toNat - 0xC0, 1, 0x80, 0xBF⟩
  /-- One of three bytes, where the lower half of the range would be too long. -/
  | threeLow (h : a.toNat = 0xE0) : Leads a ⟨0, 2, 0xA0, 0xBF⟩
  /-- One of three bytes, where the upper half of the range would be surrogates. -/
  | threeSplit (h : a.toNat = 0xED) : Leads a ⟨0xD, 2, 0x80, 0x9F⟩
  /-- One of three bytes. -/
  | three (h : 0xE1 ≤ a.toNat) (h' : a.toNat ≤ 0xEF) (hne : a.toNat ≠ 0xED) :
      Leads a ⟨a.toNat - 0xE0, 2, 0x80, 0xBF⟩
  /-- One of four bytes, where the beginning of the range would be too long. -/
  | fourLow (h : a.toNat = 0xF0) : Leads a ⟨0, 3, 0x90, 0xBF⟩
  /-- One of four bytes. -/
  | four (h : 0xF1 ≤ a.toNat) (h' : a.toNat ≤ 0xF3) : Leads a ⟨a.toNat - 0xF0, 3, 0x80, 0xBF⟩
  /-- One of four bytes, where the rest of the range would be above the last code point. -/
  | fourHigh (h : a.toNat = 0xF4) : Leads a ⟨4, 3, 0x80, 0x8F⟩

/-- What the first byte says, in numbers. -/
lemma lead?_eq (b : UInt8) :
    lead? b =
      if b.toNat ≤ 0x7F then some ⟨b.toNat, 0, 0x80, 0xBF⟩
      else if b.toNat < 0xC2 then none
      else if b.toNat ≤ 0xDF then some ⟨b.toNat - 0xC0, 1, 0x80, 0xBF⟩
      else if b.toNat = 0xE0 then some ⟨0, 2, 0xA0, 0xBF⟩
      else if b.toNat = 0xED then some ⟨0xD, 2, 0x80, 0x9F⟩
      else if b.toNat ≤ 0xEF then some ⟨b.toNat - 0xE0, 2, 0x80, 0xBF⟩
      else if b.toNat = 0xF0 then some ⟨0, 3, 0x90, 0xBF⟩
      else if b.toNat ≤ 0xF3 then some ⟨b.toNat - 0xF0, 3, 0x80, 0xBF⟩
      else if b.toNat = 0xF4 then some ⟨4, 3, 0x80, 0x8F⟩
      else none := by
  simp only [lead?, UInt8.le_iff_toNat_le, UInt8.lt_iff_toNat_lt, ← UInt8.toNat_inj,
    UInt8.reduceToNat]

lemma lead?_eq_some_iff : lead? a = some l ↔ Leads a l := by
  rw [lead?_eq]
  constructor
  · intro h
    rcases ite_eq_iff.1 h with ⟨h₁, h⟩ | ⟨h₁, h⟩
    · exact Option.some.inj h ▸ .one h₁
    rcases ite_eq_iff.1 h with ⟨-, h⟩ | ⟨h₂, h⟩
    · simp at h
    rcases ite_eq_iff.1 h with ⟨h₃, h⟩ | ⟨h₃, h⟩
    · exact Option.some.inj h ▸ .two (by omega) h₃
    rcases ite_eq_iff.1 h with ⟨h₄, h⟩ | ⟨h₄, h⟩
    · exact Option.some.inj h ▸ .threeLow h₄
    rcases ite_eq_iff.1 h with ⟨h₅, h⟩ | ⟨h₅, h⟩
    · exact Option.some.inj h ▸ .threeSplit h₅
    rcases ite_eq_iff.1 h with ⟨h₆, h⟩ | ⟨h₆, h⟩
    · exact Option.some.inj h ▸ .three (by omega) h₆ h₅
    rcases ite_eq_iff.1 h with ⟨h₇, h⟩ | ⟨h₇, h⟩
    · exact Option.some.inj h ▸ .fourLow h₇
    rcases ite_eq_iff.1 h with ⟨h₈, h⟩ | ⟨h₈, h⟩
    · exact Option.some.inj h ▸ .four (by omega) h₈
    rcases ite_eq_iff.1 h with ⟨h₉, h⟩ | ⟨h₉, h⟩
    · exact Option.some.inj h ▸ .fourHigh h₉
    · simp at h
  · intro h
    cases h with
    | one h => rw [if_pos h]
    | two h h' => rw [if_neg (by omega), if_neg (by omega), if_pos h']
    | threeLow h => rw [if_neg (by omega), if_neg (by omega), if_neg (by omega), if_pos h]
    | threeSplit h =>
      rw [if_neg (by omega), if_neg (by omega), if_neg (by omega), if_neg (by omega), if_pos h]
    | three h h' hne =>
      rw [if_neg (by omega), if_neg (by omega), if_neg (by omega), if_neg (by omega), if_neg hne,
        if_pos h']
    | fourLow h =>
      rw [if_neg (by omega), if_neg (by omega), if_neg (by omega), if_neg (by omega),
        if_neg (by omega), if_neg (by omega), if_pos h]
    | four h h' =>
      rw [if_neg (by omega), if_neg (by omega), if_neg (by omega), if_neg (by omega),
        if_neg (by omega), if_neg (by omega), if_neg (by omega), if_pos h']
    | fourHigh h =>
      rw [if_neg (by omega), if_neg (by omega), if_neg (by omega), if_neg (by omega),
        if_neg (by omega), if_neg (by omega), if_neg (by omega), if_neg (by omega), if_pos h]

lemma isTail_iff : IsTail b ↔ 0x80 ≤ b ∧ b ≤ 0xBF := by
  simp only [IsTail, UInt8.le_iff_toNat_le, UInt8.reduceToNat]
  omega

/-- The range for the next byte is one of bytes that go on with a sequence. -/
lemma Leads.range (h : Leads a l) : 0x80 ≤ l.low ∧ l.high ≤ 0xBF := by
  cases h <;> simp

/-! ### Sequences by their first byte -/

lemma completes_zero_iff :
    Lead.Completes ⟨value, 0, low, high⟩ tails code ↔ tails = [] ∧ value = code := by
  constructor
  · rintro ⟨hlength, -, -, hbits⟩
    obtain rfl := List.length_eq_zero_iff.1 hlength
    exact ⟨rfl, hbits⟩
  · rintro ⟨rfl, rfl⟩
    exact ⟨rfl, by simp, by simp, rfl⟩

/-- The next byte is in its range, and the bytes behind it can be any that go on with a sequence. -/
lemma completes_succ_iff :
    Lead.Completes ⟨value, n + 1, low, high⟩ tails code ↔
      ∃ b rest, tails = b :: rest ∧ IsTail b ∧ (low ≤ b ∧ b ≤ high) ∧
        Lead.Completes ⟨value * 0x40 + tailBits b, n, 0x80, 0xBF⟩ rest code := by
  constructor
  · rintro ⟨hlength, htails, hsecond, hbits⟩
    obtain ⟨b, rest, rfl⟩ := List.exists_cons_of_length_eq_add_one hlength
    obtain ⟨hb, hrest⟩ := List.forall_mem_cons.1 htails
    exact ⟨b, rest, rfl, hb, hsecond b rfl, Nat.succ.inj hlength, hrest,
      fun c hc => isTail_iff.1 (hrest c (List.mem_of_mem_head? hc)), hbits⟩
  · rintro ⟨b, rest, rfl, hb, hrange, hlength, hrest, -, hbits⟩
    exact ⟨congrArg Nat.succ hlength, List.forall_mem_cons.2 ⟨hb, hrest⟩, by simpa using hrange,
      hbits⟩

lemma IsSequence.exists_leads (h : IsSequence (a :: tails) code) :
    ∃ l, Leads a l ∧ l.Completes tails code := by
  cases h with
  | one first => exact ⟨_, .one (by omega), completes_zero_iff.2 ⟨rfl, rfl⟩⟩
  | @two _ b _ first tail bits shortest =>
    have hb := tailBits_lt b
    exact ⟨_, .two (by omega) (by omega), completes_succ_iff.2 ⟨b, [], rfl, tail,
      isTail_iff.1 tail, completes_zero_iff.2 ⟨rfl, by omega⟩⟩⟩
  | @three _ b c _ first tail₁ tail₂ bits shortest character =>
    have hb := tail₁.toNat_eq
    have hb' := tailBits_lt b
    have hc' := tailBits_lt c
    have hcompletes : ∀ low high : UInt8, low ≤ b ∧ b ≤ high →
        Lead.Completes ⟨a.toNat - 0xE0, 2, low, high⟩ [b, c] code := fun low high hrange =>
      completes_succ_iff.2 ⟨b, [c], rfl, tail₁, hrange, completes_succ_iff.2 ⟨c, [], rfl, tail₂,
        isTail_iff.1 tail₂, completes_zero_iff.2 ⟨rfl, by omega⟩⟩⟩
    simp only [UInt8.le_iff_toNat_le] at hcompletes
    -- the first byte narrows the range where the code point could be too small or a surrogate
    by_cases hlow : a.toNat = 0xE0
    · refine ⟨_, .threeLow hlow, ?_⟩
      rw [hlow] at hcompletes
      exact hcompletes _ _ (by simp only [UInt8.reduceToNat]; omega)
    · by_cases hsplit : a.toNat = 0xED
      · refine ⟨_, .threeSplit hsplit, ?_⟩
        rw [hsplit] at hcompletes
        exact hcompletes _ _ (by simp only [UInt8.reduceToNat]; omega)
      · refine ⟨_, .three (by omega) (by omega) hsplit, ?_⟩
        exact hcompletes _ _ (by simp only [UInt8.reduceToNat]; omega)
  | @four _ b c d _ first tail₁ tail₂ tail₃ bits shortest character =>
    have hb := tail₁.toNat_eq
    have hb' := tailBits_lt b
    have hc' := tailBits_lt c
    have hd' := tailBits_lt d
    have hcompletes : ∀ low high : UInt8, low ≤ b ∧ b ≤ high →
        Lead.Completes ⟨a.toNat - 0xF0, 3, low, high⟩ [b, c, d] code := fun low high hrange =>
      completes_succ_iff.2 ⟨b, [c, d], rfl, tail₁, hrange,
        completes_succ_iff.2 ⟨c, [d], rfl, tail₂, isTail_iff.1 tail₂,
          completes_succ_iff.2 ⟨d, [], rfl, tail₃, isTail_iff.1 tail₃,
            completes_zero_iff.2 ⟨rfl, by omega⟩⟩⟩⟩
    simp only [UInt8.le_iff_toNat_le] at hcompletes
    -- the first byte narrows the range where the code point could be too small or too great
    by_cases hlow : a.toNat = 0xF0
    · refine ⟨_, .fourLow hlow, ?_⟩
      rw [hlow] at hcompletes
      exact hcompletes _ _ (by simp only [UInt8.reduceToNat]; omega)
    · by_cases hhigh : a.toNat = 0xF4
      · refine ⟨_, .fourHigh hhigh, ?_⟩
        rw [hhigh] at hcompletes
        exact hcompletes _ _ (by simp only [UInt8.reduceToNat]; omega)
      · refine ⟨_, .four (by omega) (by omega), ?_⟩
        exact hcompletes _ _ (by simp only [UInt8.reduceToNat]; omega)

lemma Leads.isSequence (hl : Leads a l) (h : l.Completes tails code) :
    IsSequence (a :: tails) code := by
  cases hl with
  | one ha =>
    obtain ⟨rfl, rfl⟩ := completes_zero_iff.1 h
    exact .one (by omega)
  | two ha ha' =>
    obtain ⟨b, _, rfl, hb, -, h⟩ := completes_succ_iff.1 h
    obtain ⟨rfl, hbits⟩ := completes_zero_iff.1 h
    exact .two (by omega) hb (by omega) (by omega)
  | threeLow ha | threeSplit ha | three ha ha' hne =>
    obtain ⟨b, _, rfl, hb, hrange, h⟩ := completes_succ_iff.1 h
    obtain ⟨c, _, rfl, hc, -, h⟩ := completes_succ_iff.1 h
    obtain ⟨rfl, hbits⟩ := completes_zero_iff.1 h
    have hb' := hb.toNat_eq
    have hc' := tailBits_lt c
    simp only [UInt8.le_iff_toNat_le, UInt8.reduceToNat] at hrange
    exact .three (by omega) hb hc (by omega) (by omega) (by omega)
  | fourLow ha | fourHigh ha | four ha ha' =>
    obtain ⟨b, _, rfl, hb, hrange, h⟩ := completes_succ_iff.1 h
    obtain ⟨c, _, rfl, hc, -, h⟩ := completes_succ_iff.1 h
    obtain ⟨d, _, rfl, hd, -, h⟩ := completes_succ_iff.1 h
    obtain ⟨rfl, hbits⟩ := completes_zero_iff.1 h
    have hb' := hb.toNat_eq
    have hc' := tailBits_lt c
    have hd' := tailBits_lt d
    simp only [UInt8.le_iff_toNat_le, UInt8.reduceToNat] at hrange
    exact .four (by omega) hb hc hd (by omega) (by omega) (by omega)

/-- The sequences of characters are those that the first byte describes. -/
lemma isSequence_cons_iff :
    IsSequence (a :: tails) code ↔ ∃ l, lead? a = some l ∧ l.Completes tails code := by
  simp only [lead?_eq_some_iff]
  exact ⟨IsSequence.exists_leads, fun ⟨_, hl, h⟩ => hl.isSequence h⟩

/-! ### The decoder -/

/-- Reading on succeeds exactly with as many bytes as are asked for, if they go on with a sequence
and the first of them is in its range. -/
lemma continuation_eq_ok_iff (hlow : 0x80 ≤ low) (hhigh : high ≤ 0xBF) :
    continuation n low high value bytes = .ok (code, rest) ↔
      ∃ tails, bytes = tails ++ rest ∧ Lead.Completes ⟨value, n, low, high⟩ tails code := by
  induction n generalizing low high value bytes with
  | zero => simp [continuation, completes_zero_iff, eq_comm, and_comm]
  | succ n ih =>
    simp only [completes_succ_iff]
    cases bytes with
    | nil => simp [continuation]
    | cons b bytes =>
      have hstep : continuation (n + 1) low high value (b :: bytes) = .ok (code, rest) ↔
          (low ≤ b ∧ b ≤ high) ∧
            continuation n 0x80 0xBF (value * 0x40 + (b.toNat - 0x80)) bytes
              = .ok (code, rest) := by
        by_cases hb : low ≤ b ∧ b ≤ high
        · simp only [continuation, hb, true_and]
          cases continuation n 0x80 0xBF (value * 0x40 + (b.toNat - 0x80)) bytes <;> simp
        · simp [continuation, hb]
      rw [hstep, ih UInt8.le_rfl UInt8.le_rfl]
      constructor
      · rintro ⟨hb, tails, rfl, hcompletes⟩
        have htail : IsTail b :=
          isTail_iff.2 ⟨UInt8.le_trans hlow hb.1, UInt8.le_trans hb.2 hhigh⟩
        rw [htail.toNat_eq, Nat.add_sub_cancel] at hcompletes
        exact ⟨b :: tails, rfl, b, tails, rfl, htail, hb, hcompletes⟩
      · rintro ⟨_, happend, b', tails, rfl, htail, hb, hcompletes⟩
        obtain ⟨rfl, rfl⟩ := List.cons.inj happend
        rw [htail.toNat_eq, Nat.add_sub_cancel]
        exact ⟨hb, tails, rfl, hcompletes⟩

/-- Reading a sequence and what follows it. -/
lemma decodeUtf8_cons (hl : lead? a = some l)
    (hc : continuation l.following l.low l.high l.bits bytes = .ok (code, rest)) (offset : Nat) :
    decodeUtf8 offset (a :: bytes)
      = (decodeUtf8 (offset + (bytes.length + 1 - rest.length)) rest).map
          (Char.ofNat code :: ·) := by
  rw [decodeUtf8]
  simp only [hl]
  split
  · next herror => simp [hc] at herror
  · next hok =>
    obtain ⟨rfl, rfl⟩ := Prod.mk.inj (Except.ok.inj (hc.symm.trans hok))
    cases decodeUtf8 (offset + (bytes.length + 1 - rest.length)) rest <;> rfl

lemma IsSequence.ne_nil (h : IsSequence sequence code) : sequence ≠ [] := by
  cases h <;> exact List.cons_ne_nil _ _

/-- The decoder reads a sequence as its character and goes on behind it. -/
lemma decodeUtf8_append (h : IsSequence sequence code) (rest : Bytes) (offset : Nat) :
    decodeUtf8 offset (sequence ++ rest)
      = (decodeUtf8 (offset + sequence.length) rest).map (Char.ofNat code :: ·) := by
  obtain ⟨a, tails, rfl⟩ := List.exists_cons_of_ne_nil h.ne_nil
  obtain ⟨l, hl, hcompletes⟩ := isSequence_cons_iff.1 h
  obtain ⟨hlow, hhigh⟩ := (lead?_eq_some_iff.1 hl).range
  have hc : continuation l.following l.low l.high l.bits (tails ++ rest) = .ok (code, rest) :=
    (continuation_eq_ok_iff hlow hhigh).2 ⟨tails, rfl, hcompletes⟩
  rw [List.cons_append, decodeUtf8_cons hl hc, List.length_append, List.length_cons]
  congr 2
  omega

/-- Where the decoder reads something, there is a sequence. -/
lemma exists_isSequence (h : decodeUtf8 offset bytes = .ok text) (hne : bytes ≠ []) :
    ∃ sequence rest code, IsSequence sequence code ∧ bytes = sequence ++ rest := by
  obtain ⟨a, bytes, rfl⟩ := List.exists_cons_of_ne_nil hne
  rw [decodeUtf8] at h
  split at h
  · simp at h
  · next l hl =>
    split at h
    · simp at h
    · next code rest hc =>
      obtain ⟨hlow, hhigh⟩ := (lead?_eq_some_iff.1 hl).range
      obtain ⟨tails, rfl, hcompletes⟩ := (continuation_eq_ok_iff hlow hhigh).1 hc
      exact ⟨a :: tails, rest, code, isSequence_cons_iff.2 ⟨l, hl, hcompletes⟩, rfl⟩

/-- Decoding undoes encoding. -/
theorem decodeUtf8_utf8Bytes (text : Text) (offset : Nat) :
    decodeUtf8 offset (utf8Bytes text) = .ok text := by
  induction text generalizing offset with
  | nil => simp [utf8Bytes, decodeUtf8]
  | cons c text ih =>
    have hcons : utf8Bytes (c :: text) = String.utf8EncodeChar c ++ utf8Bytes text := rfl
    rw [hcons, decodeUtf8_append (isSequence_utf8EncodeChar c), ih, Char.ofNat_toNat]
    rfl

/-- What can be decoded is well-formed. -/
lemma isWellFormed_of_decodeUtf8 (h : decodeUtf8 offset bytes = .ok text) :
    IsWellFormed bytes := by
  induction hlength : bytes.length using Nat.strong_induction_on generalizing offset bytes text with
  | _ n ih =>
    by_cases hne : bytes = []
    · exact hne ▸ .nil
    · obtain ⟨sequence, rest, code, hfirst, rfl⟩ := exists_isSequence h hne
      rw [decodeUtf8_append hfirst] at h
      have hshorter : rest.length < n := by
        have hpos := List.length_pos_iff.2 hfirst.ne_nil
        rw [List.length_append] at hlength
        omega
      cases hrest : decodeUtf8 (offset + sequence.length) rest with
      | error fault => simp [hrest, Except.map] at h
      | ok later => exact .append hfirst (ih _ hshorter hrest rfl)

/-- Bytes are decoded to a text exactly if they are what is written for it. -/
theorem decodeUtf8_eq_ok_iff : decodeUtf8 offset bytes = .ok text ↔ utf8Bytes text = bytes := by
  constructor
  · intro h
    obtain ⟨text', rfl⟩ := isWellFormed_iff.1 (isWellFormed_of_decodeUtf8 h)
    rw [decodeUtf8_utf8Bytes] at h
    rw [Except.ok.inj h]
  · rintro rfl
    exact decodeUtf8_utf8Bytes text offset

/-- Bytes are decoded to some text exactly if they are well-formed. -/
theorem exists_decodeUtf8_iff :
    (∃ text, decodeUtf8 offset bytes = .ok text) ↔ IsWellFormed bytes := by
  simp only [decodeUtf8_eq_ok_iff, isWellFormed_iff]

end CommentMarkup.Encoding
