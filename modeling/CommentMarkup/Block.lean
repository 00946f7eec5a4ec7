/-
# Blocks

A document is cut into blocks: comments, kept whole with their delimiters, and literal runs,
which end after their first newline, before the next comment, or at the end of the text.  So
a line that holds only comments and blanks can be recognised from its blocks.

The main statement is that scanning loses nothing: a lexeme and what follows it make up the
text it was cut from (`append_of_lexeme?`).
-/
import CommentMarkup.Text.Basic

namespace CommentMarkup

/-- What opens a comment: `<!--`. -/
def commentOpening : Text := ['<', '!', '-', '-']

/-- What closes a comment: `-->`. -/
def commentClosing : Text := ['-', '-', '>']

/-- A piece of a text that begins at a known offset. -/
structure Block where
  /-- The offset of the first character of the block. -/
  start : Nat
  /-- The characters of the block. -/
  data : Text
deriving DecidableEq, Repr

namespace Block

/-- The offset just past the last character of a block. -/
def stop (b : Block) : Nat := b.start + b.data.length

/-- Whether a block begins like a comment. -/
def isComment (b : Block) : Bool := commentOpening.isPrefixOf b.data

/-- A text cut after its literal run: up to and including the first newline, or up to the
next comment, whichever comes first. -/
def literalRun : Text → Text × Text
  | [] => ([], [])
  | c :: r =>
    if commentOpening.isPrefixOf (c :: r) then ([], c :: r)
    else if c = '\n' then ([c], r)
    else
      let (run, rest) := literalRun r
      (c :: run, rest)

/-- The first block of a text and what follows it, or nothing if the text begins with a
comment that is never closed. -/
def lexeme? (s : Text) : Option (Text × Text) :=
  match Text.after? commentOpening s with
  | some body =>
    (Text.breakOn? commentClosing body).map fun p =>
      (commentOpening ++ p.1 ++ commentClosing, p.2)
  | none => some (literalRun s)

theorem append_literalRun (s : Text) : (literalRun s).1 ++ (literalRun s).2 = s := by
  induction s with
  | nil => rfl
  | cons c r ih =>
    simp only [literalRun]
    split
    · rfl
    · split
      · rfl
      · simpa using ih

theorem literalRun_ne_nil {c : Char} {r : Text} (h : commentOpening.isPrefixOf (c :: r) = false) :
    (literalRun (c :: r)).1 ≠ [] := by
  simp only [literalRun, h, Bool.false_eq_true, if_false]
  split <;> simp

/-- A lexeme and what follows it make up the text. -/
theorem append_of_lexeme? {s data rest : Text} (h : lexeme? s = some (data, rest)) :
    data ++ rest = s := by
  simp only [lexeme?] at h
  split at h
  · next body hbody =>
    -- a comment: its delimiters and what stands between them
    simp only [Option.map_eq_some_iff, Prod.mk.injEq] at h
    obtain ⟨p, hp, rfl, rfl⟩ := h
    have h₁ := Text.after?_eq_some_iff.1 hbody
    have h₂ := Text.append_of_breakOn? (a := p.1) (b := p.2) hp
    rw [← h₁, ← h₂]
    simp
  · -- a literal run
    simp only [Option.some.injEq] at h
    have := append_literalRun s
    rw [h] at this
    exact this

/-- A lexeme of a text that is not empty is not empty either. -/
theorem lexeme?_ne_nil {s data rest : Text} (hs : s ≠ []) (h : lexeme? s = some (data, rest)) :
    data ≠ [] := by
  simp only [lexeme?] at h
  split at h
  · simp only [Option.map_eq_some_iff, Prod.mk.injEq] at h
    obtain ⟨p, hp, rfl, rfl⟩ := h
    simp [commentOpening]
  · next hnone =>
    cases s with
    | nil => exact absurd rfl hs
    | cons c r =>
      have := literalRun_ne_nil (Text.after?_eq_none_iff.1 hnone)
      simp only [Option.some.injEq] at h
      rw [h] at this
      exact this

theorem length_lt_of_lexeme? {s data rest : Text} (hs : s ≠ [])
    (h : lexeme? s = some (data, rest)) : rest.length < s.length := by
  have h₁ := append_of_lexeme? h
  have h₂ := List.length_pos_iff.2 (lexeme?_ne_nil hs h)
  rw [← h₁, List.length_append]
  omega

/-- The blocks of a text that begins at a given offset of the whole document.  It fails with
the offset of a comment that is never closed. -/
def scanFrom (start : Nat) (s : Text) : Except Nat (List Block) :=
  if _hs : s = [] then .ok []
  else
    match _h : lexeme? s with
    | none => .error start
    | some (data, rest) =>
      match scanFrom (start + data.length) rest with
      | .error offset => .error offset
      | .ok blocks => .ok (⟨start, data⟩ :: blocks)
termination_by s.length
decreasing_by exact length_lt_of_lexeme? _hs _h

/-- The blocks of a document text in order, or the offset of the comment that is never
closed. -/
def scan (text : Text) : Except Nat (List Block) := scanFrom 0 text

end Block

end CommentMarkup
