/-
# The one way to cut a text

The blocks of a text can be described without a look at how they are found: they stand one
behind the other from the first character to the last, each of them is a whole comment or a
literal, and a literal goes on to the end of its line unless a comment or the end of the text
comes first (`IsPartition`).  A text has at most one such list of blocks, and it has one
exactly if scanning it succeeds, which then yields this list (`scan_eq_ok_iff_isPartition`).
-/
import CommentMarkup.Proofs.Lexeme
import CommentMarkup.Proofs.Run
import CommentMarkup.Proofs.Scan

namespace CommentMarkup.Block

/-- Some blocks stand one behind the other, from one offset to another. -/
def Spans : Nat → List Block → Nat → Prop
  | start, [], stop => start = stop
  | start, b :: rest, stop => b.start = start ∧ Spans b.stop rest stop

/-- Some blocks cut a text, from an offset to its end, into comments and literals. -/
structure IsPartition (start : Nat) (text : Text) (bs : List Block) : Prop where
  /-- They stand one behind the other, up to the end of the text. -/
  spans : Spans start bs text.length
  /-- None of them is empty. -/
  ne_nil : ∀ b ∈ bs, b.data ≠ []
  /-- Each holds the characters of the text from its first offset to its last. -/
  data : ∀ b ∈ bs, b.data = (text.drop b.start).take (b.stop - b.start)
  /-- Each is a whole comment or a literal. -/
  shape : ∀ b ∈ bs, IsWholeComment b.data ∨ IsLiteral b.data
  /-- A literal that does not end its line has a comment or nothing behind it. -/
  ends : ∀ before b next after, bs = before ++ b :: next :: after → IsLiteral b.data →
    b.data.getLast? ≠ some '\n' → IsWholeComment next.data

variable {start : Nat} {text s : Text} {bs : List Block} {b : Block}

/-! ### Block by block -/

lemma isPartition_nil : IsPartition start text [] ↔ start = text.length := by
  refine ⟨fun h => h.spans, fun h => ⟨h, by simp, by simp, by simp, ?_⟩⟩
  intro before b next after hsplit
  simp at hsplit

lemma eq_take_iff_prefix {data : Text} {n : Nat} :
    data = (text.drop n).take data.length ↔ data <+: text.drop n := by
  constructor
  · intro h
    rw [h]
    exact List.take_prefix _ _
  · rintro ⟨rest, hrest⟩
    rw [← hrest, List.take_left]

/-- Blocks cut a text if the first one is cut from its beginning and the others cut what
follows. -/
lemma isPartition_cons :
    IsPartition start text (b :: bs) ↔
      b.start = start ∧ b.data ≠ [] ∧ b.data <+: text.drop start ∧
        (IsWholeComment b.data ∨ IsLiteral b.data) ∧
        (IsLiteral b.data → b.data.getLast? ≠ some '\n' →
          ∀ next ∈ bs.head?, IsWholeComment next.data) ∧
        IsPartition b.stop text bs := by
  have hlength : b.stop - b.start = b.data.length := Nat.add_sub_cancel_left _ _
  constructor
  · intro h
    obtain ⟨hstart, hspans⟩ := h.spans
    have hdata := h.data b List.mem_cons_self
    rw [hlength, eq_take_iff_prefix, hstart] at hdata
    refine ⟨hstart, h.ne_nil b List.mem_cons_self, hdata, h.shape b List.mem_cons_self, ?_,
      hspans, fun c hc => h.ne_nil c (List.mem_cons_of_mem _ hc),
      fun c hc => h.data c (List.mem_cons_of_mem _ hc),
      fun c hc => h.shape c (List.mem_cons_of_mem _ hc), ?_⟩
    · intro hlit hline next hnext
      obtain ⟨after, rfl⟩ := List.head?_eq_some_iff.1 hnext
      exact h.ends [] b next after rfl hlit hline
    · intro before c next after hsplit
      exact h.ends (b :: before) c next after (by rw [hsplit, List.cons_append])
  · rintro ⟨hstart, hne, hdata, hshape, hends, h⟩
    refine ⟨⟨hstart, h.spans⟩, ?_, ?_, ?_, ?_⟩
    · exact List.forall_mem_cons.2 ⟨hne, h.ne_nil⟩
    · refine List.forall_mem_cons.2 ⟨?_, h.data⟩
      rw [hlength, eq_take_iff_prefix, hstart]
      exact hdata
    · exact List.forall_mem_cons.2 ⟨hshape, h.shape⟩
    · intro before c next after hsplit hlit hline
      cases before with
      | nil =>
        obtain ⟨rfl, rfl⟩ := List.cons.inj hsplit
        exact hends hlit hline next rfl
      | cons first before =>
        obtain ⟨rfl, hrest⟩ := List.cons.inj hsplit
        exact h.ends before c next after hrest hlit hline

/-! ### Scanning and cutting -/

/-- The first block of a cut text is its lexeme. -/
lemma IsPartition.lexeme?_eq (h : IsPartition start text (b :: bs)) :
    lexeme? (text.drop start) = some (b.data, text.drop b.stop) := by
  obtain ⟨rfl, hne, ⟨rest, hrest⟩, hshape, hends, h⟩ := isPartition_cons.1 h
  have hdrop : text.drop b.stop = rest := by
    rw [stop, ← List.drop_drop, ← hrest, List.drop_left]
  rw [hdrop, ← hrest]
  refine (lexeme?_eq_some_iff (by simp [hne])).2 ⟨rfl, ?_⟩
  rcases hshape with hcomment | hlit
  · exact .comment hcomment
  · refine .literal hne hlit ?_
    by_cases hline : b.data.getLast? = some '\n'
    · exact Or.inl hline
    · cases bs with
      | nil =>
        -- the text ends with this block
        have hstop : b.stop = text.length := isPartition_nil.1 h
        rw [← hdrop, hstop, List.drop_length]
        exact Or.inr (Or.inl rfl)
      | cons next after =>
        obtain ⟨hnext, -, hprefix, -⟩ := isPartition_cons.1 h
        have hopen := (hends hlit hline next rfl).opens
        rw [hdrop] at hprefix
        exact Or.inr (Or.inr (hopen.trans hprefix))

/-- A scan goes on behind its first lexeme. -/
lemma scanFrom_eq_ok_iff_of_lexeme? {data rest : Text} (hs : s ≠ [])
    (h : lexeme? s = some (data, rest)) :
    scanFrom start s = .ok bs ↔ ∃ later, scanFrom (start + data.length) rest = .ok later ∧
      bs = ⟨start, data⟩ :: later := by
  rw [scanFrom_of_lexeme? hs h]
  cases scanFrom (start + data.length) rest with
  | error offset => simp [Except.map]
  | ok later => simp [Except.map, eq_comm]

/-- What is scanned begins with a lexeme, and goes on behind it. -/
lemma exists_isLexeme_of_scanFrom (h : scanFrom start s = .ok (b :: bs)) :
    b.start = start ∧
      ∃ rest, s = b.data ++ rest ∧ IsLexeme b.data rest ∧ scanFrom b.stop rest = .ok bs := by
  have hs : s ≠ [] := by
    rintro rfl
    simp [scanFrom_nil] at h
  cases hlexeme : lexeme? s with
  | none => simp [scanFrom_of_lexeme?_eq_none hs hlexeme] at h
  | some p =>
    obtain ⟨later, hlater, hsplit⟩ := (scanFrom_eq_ok_iff_of_lexeme? hs hlexeme).1 h
    obtain ⟨rfl, rfl⟩ := List.cons.inj hsplit
    obtain ⟨happend, his⟩ := (lexeme?_eq_some_iff hs).1 hlexeme
    exact ⟨rfl, p.2, happend.symm, his, hlater⟩

/-- A lexeme is scanned before what follows it. -/
lemma scanFrom_append_of_isLexeme {data rest : Text} (h : IsLexeme data rest)
    (hrest : scanFrom (start + data.length) rest = .ok bs) :
    scanFrom start (data ++ rest) = .ok (⟨start, data⟩ :: bs) := by
  have hne : data ++ rest ≠ [] := by simp [h.ne_nil]
  exact (scanFrom_eq_ok_iff_of_lexeme? hne ((lexeme?_eq_some_iff hne).2 ⟨rfl, h⟩)).2
    ⟨bs, hrest, rfl⟩

/-- A block that is scanned behind a literal which does not end its line is a comment. -/
lemma isWholeComment_of_scanFrom {data rest : Text} (hlexeme : IsLexeme data rest)
    (hlit : IsLiteral data) (hline : data.getLast? ≠ some '\n')
    (h : scanFrom start rest = .ok bs) : ∀ next ∈ bs.head?, IsWholeComment next.data := by
  intro next hnext
  have hends : rest = [] ∨ commentOpening <+: rest := by
    cases hlexeme with
    | comment hcomment => exact absurd hcomment.opens.isInfix hlit.unopened
    | literal _ _ hends => exact hends.resolve_left hline
  rcases hends with rfl | hopen
  · rw [scanFrom_nil] at h
    simp [← Except.ok.inj h] at hnext
  · have hrest : rest ≠ [] := by
      rintro rfl
      simp [commentOpening] at hopen
    cases hfirst : lexeme? rest with
    | none => simp [scanFrom_of_lexeme?_eq_none hrest hfirst] at h
    | some p =>
      obtain ⟨later, -, rfl⟩ := (scanFrom_eq_ok_iff_of_lexeme? hrest hfirst).1 h
      obtain rfl : ⟨start, p.1⟩ = next := by simpa using hnext
      exact isWholeComment_of_lexeme? hopen hfirst

/-- If scanning and cutting agree on what follows the first lexeme, they agree on all. -/
lemma scanFrom_eq_ok_iff_of_rest {data rest : Text} (hs : s ≠ []) (htext : text.drop start = s)
    (h : lexeme? s = some (data, rest))
    (ih : ∀ later, scanFrom (start + data.length) rest = .ok later ↔
      IsPartition (start + data.length) text later) :
    scanFrom start s = .ok bs ↔ IsPartition start text bs := by
  obtain ⟨happend, hlexeme⟩ := (lexeme?_eq_some_iff hs).1 h
  rw [scanFrom_eq_ok_iff_of_lexeme? hs h]
  constructor
  · rintro ⟨later, hlater, rfl⟩
    refine isPartition_cons.2 ⟨rfl, hlexeme.ne_nil, ⟨rest, happend.trans htext.symm⟩, ?_, ?_,
      (ih later).1 hlater⟩
    · cases hlexeme with
      | comment hcomment => exact Or.inl hcomment
      | literal _ hlit _ => exact Or.inr hlit
    · intro hlit hline
      exact isWholeComment_of_scanFrom hlexeme hlit hline hlater
  · intro hpartition
    cases bs with
    | nil =>
      rw [isPartition_nil.1 hpartition, List.drop_length] at htext
      exact absurd htext.symm hs
    | cons b later =>
      have hfirst := hpartition.lexeme?_eq
      obtain ⟨rfl, -, -, -, -, hlater⟩ := isPartition_cons.1 hpartition
      rw [htext, h] at hfirst
      obtain ⟨rfl, rfl⟩ := Prod.mk.inj (Option.some.inj hfirst)
      exact ⟨later, (ih later).2 hlater, rfl⟩

/-- What follows the lexeme of the end of a text is an end of the text again. -/
lemma drop_eq_of_lexeme? {data rest : Text} (hs : s ≠ []) (htext : text.drop start = s)
    (h : lexeme? s = some (data, rest)) :
    text.drop (start + data.length) = rest ∧ start + data.length ≤ text.length := by
  have happend : data ++ rest = text.drop start := (append_of_lexeme? h).trans htext.symm
  have hlength := congrArg List.length happend
  have hpos := List.length_pos_iff.2 (lexeme?_ne_nil hs h)
  rw [List.length_append, List.length_drop] at hlength
  rw [← List.drop_drop, ← happend, List.drop_left]
  exact ⟨rfl, by omega⟩

/-- Scanning the end of a text succeeds exactly if blocks cut it, and yields these. -/
lemma scanFrom_eq_ok_iff (hs : text.drop start = s) (hstart : start ≤ text.length) :
    scanFrom start s = .ok bs ↔ IsPartition start text bs := by
  induction start, s using scanFrom.induct generalizing bs with
  | case1 start =>
    have hlength : start = text.length := by
      have hle := List.drop_eq_nil_iff.1 hs
      omega
    rw [scanFrom_nil]
    cases bs with
    | nil => simp [isPartition_nil, hlength]
    | cons b bs =>
      refine ⟨by simp, fun h => ?_⟩
      obtain ⟨-, hne, hprefix, -⟩ := isPartition_cons.1 h
      rw [hs, List.prefix_nil] at hprefix
      exact absurd hprefix hne
  | case2 start s hne hnone =>
    rw [scanFrom_of_lexeme?_eq_none hne hnone]
    refine ⟨by simp, fun h => ?_⟩
    cases bs with
    | nil =>
      rw [isPartition_nil.1 h, List.drop_length] at hs
      exact absurd hs.symm hne
    | cons b bs => simp [← hs, h.lexeme?_eq] at hnone
  | case3 start s hne data rest hlexeme offset herror ih =>
    obtain ⟨hrest, hle⟩ := drop_eq_of_lexeme? hne hs hlexeme
    exact scanFrom_eq_ok_iff_of_rest hne hs hlexeme fun later => ih hrest hle
  | case4 start s hne data rest hlexeme later hlater ih =>
    obtain ⟨hrest, hle⟩ := drop_eq_of_lexeme? hne hs hlexeme
    exact scanFrom_eq_ok_iff_of_rest hne hs hlexeme fun later => ih hrest hle

/-- Scanning a text succeeds exactly if the text can be cut into comments and literals, and
yields the blocks of this cut.  There is no other one, the comments in it are the blocks that
begin like a comment, and the blocks make up the text. -/
theorem scan_eq_ok_iff_isPartition (text : Text) (bs : List Block) :
    (scan text = .ok bs ↔ IsPartition 0 text bs) ∧
      (IsPartition 0 text bs →
        (∀ other, IsPartition 0 text other → other = bs) ∧
          (∀ b ∈ bs, b.isComment = true ↔ IsWholeComment b.data) ∧
          bs.flatMap Block.data = text) := by
  have hiff : ∀ bs, scan text = .ok bs ↔ IsPartition 0 text bs := fun bs =>
    scanFrom_eq_ok_iff List.drop_zero (Nat.zero_le _)
  refine ⟨hiff bs, fun h => ⟨fun other hother => ?_, fun b hb => ?_, ?_⟩⟩
  · have hscan := (hiff other).2 hother
    rw [(hiff bs).2 h] at hscan
    exact (Except.ok.inj hscan).symm
  · refine ⟨fun hcomment => ?_, IsWholeComment.isComment⟩
    refine (h.shape b hb).resolve_right fun hlit => ?_
    simp [hlit.not_isComment] at hcomment
  · exact flatMap_data_of_scan ((hiff bs).2 h)

/-- A comment of two lines in which the marks overlap, between two lines of text. -/
theorem scan_eq_ok_iff_isPartition_of_overlap :
    let text : Text := "a\n b<!-->\n-->\nc".toList
    let bs : List Block :=
      [⟨0, "a\n".toList⟩, ⟨2, " b".toList⟩, ⟨4, "<!-->\n-->".toList⟩, ⟨13, "\n".toList⟩,
        ⟨14, "c".toList⟩]
    IsPartition 0 text bs ∧ ∀ other, IsPartition 0 text other → other = bs := by
  intro text bs
  have hscan : scan text = .ok bs := by decide +kernel
  obtain ⟨hiff, hunique⟩ := scan_eq_ok_iff_isPartition text bs
  have h := hiff.1 hscan
  exact ⟨h, (hunique h).1⟩

end CommentMarkup.Block
