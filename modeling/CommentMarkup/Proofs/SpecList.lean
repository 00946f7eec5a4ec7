/-
# The list of an include directive

What follows the first word of an include directive is a list of files.  It is cut at its commas,
and quotation marks and the blanks around it are taken away from each piece (`unquoted`).  So there
is one file more than there are commas, unless the list is blank (`inclusionSpecs_append`); a piece
without anything else in it is a file without a name.

The other way round, a name that is trimmed and has neither commas nor quotation marks can be
written with any blanks and quotation marks around it (`WrittenSpec`).  A list of such names behind
any of the words of an include is read back as these names (`ofContent_specList`).
-/
import CommentMarkup.Proofs.Path.NormalForm
import CommentMarkup.Proofs.VariableDirective

namespace CommentMarkup

/-- A text that can be written in the list of an include directive to name a file. -/
structure IsSpec (s : Text) : Prop where
  /-- It is not empty. -/
  ne_nil : s ≠ []
  /-- There are no blanks around it. -/
  trimmed : Text.trim s = s
  /-- It has no comma. -/
  not_mem : ',' ∉ s
  /-- It has no quotation marks. -/
  unquoted : ∀ c ∈ s, Directive.isQuote c = false

lemma infix_intercalate_of_mem {sep s : Text} {specs : List Text} (h : s ∈ specs) :
    s <:+: List.intercalate sep specs := by
  induction specs with
  | nil => simp at h
  | cons first rest ih =>
    cases rest with
    | nil => simp [List.mem_singleton.1 h]
    | cons next rest =>
      rw [List.intercalate_cons_cons]
      rcases List.mem_cons.1 h with rfl | h
      · exact ⟨[], sep ++ List.intercalate sep (next :: rest), by simp⟩
      · exact (ih h).trans (List.suffix_append _ _).isInfix

namespace IsSpec

variable {s t : Text}

lemma filter_eq (h : IsSpec s) : (s.filter fun c => !Directive.isQuote c) = s := by
  rw [List.filter_eq_self]
  intro c hc
  rw [h.unquoted c hc]
  rfl

/-- A text with a name in it is not blank. -/
lemma not_allBlank (h : IsSpec s) (hin : s <:+: t) : Text.allBlank t = false := by
  obtain ⟨c, more, rfl⟩ := List.exists_cons_of_ne_nil h.ne_nil
  have hc : isBlank c = false := (Text.trim_eq_self_iff.1 h.trimmed).first c rfl
  refine List.all_eq_false.2 ⟨c, hin.subset List.mem_cons_self, ?_⟩
  rw [hc]
  exact Bool.false_ne_true

end IsSpec

namespace Directive

variable {s word rest gap piece content : Text} {pieces : List Text}

/-! ### The pieces of a list -/

/-- A piece of a list without quotation marks and the blanks around it. -/
def unquoted (piece : Text) : Text := Text.trim (piece.filter fun c => !isQuote c)

lemma trim_unquoted (piece : Text) : Text.trim (unquoted piece) = unquoted piece :=
  Text.trim_eq_self_iff.2 (Text.isTrimmed_trim _)

lemma of_mem_unquoted {c : Char} (h : c ∈ unquoted piece) : c ∈ piece ∧ isQuote c = false := by
  have hleft : c ∈ Text.trimLeft (piece.filter fun c => !isQuote c) :=
    (List.rdropWhile_prefix isBlank _).subset h
  simpa using List.mem_filter.1 ((List.dropWhile_suffix isBlank).subset hleft)

lemma unquoted_eq_self (h : IsSpec s) : unquoted s = s := by
  rw [unquoted, h.filter_eq, h.trimmed]

/-- A quotation mark is not blank. -/
lemma isQuote_eq_false {c : Char} (h : isBlank c = true) : isQuote c = false := by
  rw [← Bool.not_eq_true]
  intro hquote
  simp only [isQuote, Bool.or_eq_true, decide_eq_true_eq] at hquote
  rcases hquote with rfl | rfl
  · exact absurd h (by decide)
  · exact absurd h (by decide)

/-- Blanks before a piece are around what is left of it. -/
lemma unquoted_blanks_append (hgap : Text.allBlank gap = true) (piece : Text) :
    unquoted (gap ++ piece) = unquoted piece := by
  have hkept : gap.filter (fun c => !isQuote c) = gap := by
    rw [List.filter_eq_self]
    intro c hc
    rw [isQuote_eq_false (List.all_eq_true.1 hgap c hc)]
    rfl
  rw [unquoted, List.filter_append, hkept, Text.trim_blanks_append hgap, unquoted]

/-- Blanks before a list go with its first piece. -/
lemma map_unquoted_splitOn (hgap : Text.allBlank gap = true) (hcomma : ∀ p ∈ pieces, ',' ∉ p)
    (hne : pieces ≠ []) :
    ((gap ++ List.intercalate [','] pieces).splitOn ',').map unquoted = pieces.map unquoted := by
  obtain ⟨first, more, rfl⟩ := List.exists_cons_of_ne_nil hne
  have hjoin : gap ++ List.intercalate [','] (first :: more)
      = List.intercalate [','] ((gap ++ first) :: more) := by
    cases more <;> simp [List.intercalate_cons_cons]
  have hnot : ',' ∉ gap := fun hmem => absurd (List.all_eq_true.1 hgap _ hmem) (by decide)
  obtain ⟨hfirst, hmore⟩ := List.forall_mem_cons.1 hcomma
  have hpieces : ∀ p ∈ (gap ++ first) :: more, ',' ∉ p :=
    List.forall_mem_cons.2 ⟨by simp [hnot, hfirst], hmore⟩
  rw [hjoin, List.splitOn_intercalate ',' hpieces (List.cons_ne_nil _ _), List.map_cons,
    unquoted_blanks_append hgap, List.map_cons]

/-- A text is cut into one piece more than it has separators. -/
lemma length_splitOn (x : Char) (t : Text) : (t.splitOn x).length = t.count x + 1 := by
  induction t with
  | nil => rfl
  | cons c t ih =>
    rw [List.splitOn_cons_eq_if_modifyHead, List.count_cons]
    split
    · simp [ih]
    · simp [ih]

/-- What an include directive lists is trimmed, without commas and without quotation marks. -/
lemma of_mem_inclusionSpecs (h : s ∈ inclusionSpecs content) :
    Text.trim s = s ∧ ',' ∉ s ∧ ∀ c ∈ s, isQuote c = false := by
  simp only [inclusionSpecs] at h
  split at h
  · simp at h
  · obtain ⟨piece, hpiece, rfl⟩ := List.mem_map.1 h
    exact ⟨trim_unquoted piece,
      fun hc => Path.not_mem_of_mem_splitOn hpiece (of_mem_unquoted hc).1,
      fun c hc => (of_mem_unquoted hc).2⟩

/-- What an include directive lists can be written in a list, if it is not empty. -/
lemma isSpec_of_mem (h : s ∈ inclusionSpecs content) (hne : s ≠ []) : IsSpec s := by
  obtain ⟨htrim, hcomma, hquote⟩ := of_mem_inclusionSpecs h
  exact ⟨hne, htrim, hcomma, hquote⟩

/-! ### The words of a directive -/

/-- What follows a first word is the list, without the blanks before it. -/
lemma words_append (hword : ∀ c ∈ word, isBlank c = false) (hne : word ≠ [])
    (hrest : ∀ c ∈ rest.head?, isBlank c = true) :
    Text.firstWord (word ++ rest) = word ∧
      Text.afterFirstWord (word ++ rest) = Text.trimLeft rest := by
  have hwhole : Text.trimLeft (word ++ rest) = word ++ rest := by
    refine Text.trimLeft_eq_self ?_
    rw [List.head?_append_of_ne_nil _ hne]
    exact fun c hc => hword c (List.mem_of_mem_head? hc)
  obtain ⟨htaken, hleft⟩ := takeWhile_dropWhile_append hword hrest
  simp only [Text.firstWord, Text.afterFirstWord, hwhole, htaken, hleft, true_and]

/-- What an include directive lists. -/
lemma inclusionSpecs_append (hword : ∀ c ∈ word, isBlank c = false) (hne : word ≠ [])
    (hrest : ∀ c ∈ rest.head?, isBlank c = true) :
    inclusionSpecs (word ++ rest)
      = if Text.allBlank rest then [] else (rest.splitOn ',').map unquoted := by
  have hblank : Text.trimLeft rest = [] ↔ Text.allBlank rest = true := by
    simp [Text.trimLeft, Text.allBlank]
  simp only [inclusionSpecs, (words_append hword hne hrest).2, hblank]
  refine if_congr Iff.rfl rfl ?_
  -- the list behind its blanks is put together from its pieces again
  have hpieces : ∀ p ∈ (Text.trimLeft rest).splitOn ',', ',' ∉ p := fun _ =>
    Path.not_mem_of_mem_splitOn
  have hgap : Text.allBlank (rest.takeWhile isBlank) = true := List.all_takeWhile
  have hsplit := map_unquoted_splitOn hgap hpieces (List.splitOn_ne_nil ',' _)
  rw [List.intercalate_splitOn, Text.trimLeft, List.takeWhile_append_dropWhile] at hsplit
  exact hsplit.symm

lemma ne_nil_of_keyword {keyword : Text} (hkeyword : keyword ∈ inclusionKeywords)
    (hbegin : keyword <+: word) : word ≠ [] := by
  rintro rfl
  rw [List.prefix_nil.1 hbegin] at hkeyword
  revert hkeyword
  decide

/-- A directive that begins like an include has a first word. -/
lemma exists_word_of_keyword {keyword : Text} (hkeyword : keyword ∈ inclusionKeywords)
    (hbegin : keyword <+: content) :
    ∃ word, word ++ content.dropWhile (fun c => !isBlank c) = content ∧
      (∀ c ∈ word, isBlank c = false) ∧ word ≠ [] ∧
      ∀ c ∈ (content.dropWhile fun c => !isBlank c).head?, isBlank c = true := by
  refine ⟨content.takeWhile fun c => !isBlank c, List.takeWhile_append_dropWhile, ?_, ?_, ?_⟩
  · intro c hc
    simpa using List.all_eq_true.1 List.all_takeWhile c hc
  · obtain ⟨more, rfl⟩ := hbegin
    have hletters :
        (inclusionKeywords.all fun keyword => keyword.all fun c => !isBlank c) = true := by
      decide
    have hpass := List.all_eq_true.1 (List.all_eq_true.1 hletters keyword hkeyword)
    rw [List.takeWhile_append_of_pos hpass]
    exact fun hnil => ne_nil_of_keyword hkeyword (List.prefix_rfl) (List.append_eq_nil_iff.1 hnil).1
  · intro c hc
    have hnot := List.head?_dropWhile_not (fun c => !isBlank c) content
    rw [Option.mem_def.1 hc] at hnot
    simpa using hnot

/-- A word that begins like an include makes one, whatever it lists. -/
lemma ofContent_inclusion {keyword : Text} (hkeyword : keyword ∈ inclusionKeywords)
    (hbegin : keyword <+: word) (hword : ∀ c ∈ word, isBlank c = false)
    (hrest : ∀ c ∈ rest.head?, isBlank c = true) :
    ofContent (word ++ rest)
      = .inclusion (inclusionSpecs (word ++ rest)) (Text.occursIn base64Mark word) := by
  have hbegins : (inclusionKeywords.any fun keyword => keyword.isPrefixOf (word ++ rest)) = true :=
    List.any_eq_true.2 ⟨keyword, hkeyword,
      List.isPrefixOf_iff_prefix.2 (hbegin.trans (List.prefix_append _ _))⟩
  rw [ofContent, if_pos hbegins,
    (words_append hword (ne_nil_of_keyword hkeyword hbegin) hrest).1]

/-! ### Lists as they are written -/

/-- The words of an include directive. -/
def inclusionWords : List Text :=
  inclusionKeywords.flatMap fun keyword => [keyword, keyword ++ "-base64".toList]

/-- The name of a file as it is written in a list. -/
structure WrittenSpec where
  /-- What stands before the name. -/
  before : Text
  /-- The name. -/
  spec : Text
  /-- What stands behind the name. -/
  after : Text
  /-- The name can be written in a list. -/
  isSpec : IsSpec spec
  /-- Only blanks and quotation marks stand around it; the marks need not match. -/
  around : ∀ c ∈ before ++ after, isBlank c = true ∨ isQuote c = true

namespace WrittenSpec

/-- The whole text. -/
def text (w : WrittenSpec) : Text := w.before ++ w.spec ++ w.after

lemma spec_infix_text (w : WrittenSpec) : w.spec <:+: w.text := ⟨w.before, w.after, rfl⟩

lemma not_mem_text (w : WrittenSpec) : ',' ∉ w.text := by
  have haround : ',' ∉ w.before ++ w.after := fun hmem => by
    have hcomma := w.around _ hmem
    revert hcomma
    decide
  have hspec := w.isSpec.not_mem
  simp only [text, List.mem_append, not_or] at haround ⊢
  exact ⟨⟨haround.1, hspec⟩, haround.2⟩

/-- Without the quotation marks, only blanks are left around a name. -/
lemma allBlank_filter {s : Text} (h : ∀ c ∈ s, isBlank c = true ∨ isQuote c = true) :
    Text.allBlank (s.filter fun c => !isQuote c) = true := by
  refine List.all_eq_true.2 fun c hc => ?_
  obtain ⟨hmem, hquote⟩ := List.mem_filter.1 hc
  refine (h c hmem).resolve_right fun h => ?_
  simp [h] at hquote

lemma unquoted_text (w : WrittenSpec) : unquoted w.text = w.spec := by
  have hbefore := allBlank_filter fun c hc => w.around c (List.mem_append_left _ hc)
  have hafter := allBlank_filter fun c hc => w.around c (List.mem_append_right _ hc)
  rw [unquoted, text, List.filter_append, List.filter_append, w.isSpec.filter_eq]
  exact Text.trim_between_blanks hbefore hafter (Text.trim_eq_self_iff.1 w.isSpec.trimmed)
    w.isSpec.ne_nil

end WrittenSpec

/-- The words of an include have no blanks, begin like one, and say whether it is for the base64
form. -/
lemma of_mem_inclusionWords (h : word ∈ inclusionWords) :
    (∀ c ∈ word, isBlank c = false) ∧ (∃ keyword ∈ inclusionKeywords, keyword <+: word) ∧
      Text.occursIn base64Mark word = decide ("-base64".toList <:+ word) := by
  have hwords : ∀ word ∈ inclusionWords, (word.all fun c => !isBlank c) = true ∧
      (∃ keyword ∈ inclusionKeywords, keyword <+: word) ∧
      Text.occursIn base64Mark word = decide ("-base64".toList <:+ word) := by
    decide
  obtain ⟨hletters, hrest⟩ := hwords word h
  exact ⟨fun c hc => by simpa using List.all_eq_true.1 hletters c hc, hrest⟩

/-- Lists of files as they are written and as they are read.

Take one of the four words of an include, at least one blank, and the names of some files, with any
blanks and quotation marks around each of them, and a comma between two.  This is read as an include
of these files in their order, for the base64 form exactly if the word ends like that.

The other way round, let a directive begin like an include.  If nothing but blanks follows its first
word, it lists no files, and otherwise one more than there are commas behind that word.  All of them
are trimmed, without commas and without quotation marks. -/
theorem ofContent_specList :
    (∀ word ∈ inclusionWords, ∀ gap, gap ≠ [] → Text.allBlank gap = true →
        ∀ items : List WrittenSpec, items ≠ [] →
          ofContent (word ++ gap ++ List.intercalate [','] (items.map WrittenSpec.text))
            = .inclusion (items.map WrittenSpec.spec) (decide ("-base64".toList <:+ word))) ∧
      ∀ keyword ∈ inclusionKeywords, ∀ content, keyword <+: content →
        let rest := content.dropWhile fun c => !isBlank c
        (Text.allBlank rest = true → inclusionSpecs content = []) ∧
          (Text.allBlank rest = false →
            (inclusionSpecs content).length = 1 + rest.count ',') ∧
          ∀ spec ∈ inclusionSpecs content,
            Text.trim spec = spec ∧ ',' ∉ spec ∧ ∀ c ∈ spec, isQuote c = false := by
  constructor
  · intro word hmem gap hne hgap items hitems
    obtain ⟨hword, ⟨keyword, hkeyword, hbegin⟩, hbase64⟩ := of_mem_inclusionWords hmem
    have hrest : ∀ c ∈ (gap ++ List.intercalate [','] (items.map WrittenSpec.text)).head?,
        isBlank c = true := by
      rw [List.head?_append_of_ne_nil _ hne]
      exact fun c hc => List.all_eq_true.1 hgap c (List.mem_of_mem_head? hc)
    have hcomma : ∀ p ∈ items.map WrittenSpec.text, ',' ∉ p :=
      List.forall_mem_map.2 fun w _ => w.not_mem_text
    obtain ⟨w, hw⟩ := List.exists_mem_of_ne_nil items hitems
    have hnamed : w.spec <:+: gap ++ List.intercalate [','] (items.map WrittenSpec.text) :=
      (w.spec_infix_text.trans (infix_intercalate_of_mem (List.mem_map_of_mem hw))).trans
        (List.suffix_append _ _).isInfix
    rw [List.append_assoc, ofContent_inclusion hkeyword hbegin hword hrest, hbase64,
      inclusionSpecs_append hword (ne_nil_of_keyword hkeyword hbegin) hrest,
      if_neg (by rw [w.isSpec.not_allBlank hnamed]; exact Bool.false_ne_true),
      map_unquoted_splitOn hgap hcomma (by simpa using hitems), List.map_map]
    exact congrArg (Directive.inclusion · _)
      (List.map_congr_left fun w _ => w.unquoted_text)
  · intro keyword hkeyword content hbegin rest
    obtain ⟨word, hcontent, hword, hne, hrest⟩ := exists_word_of_keyword hkeyword hbegin
    have hspecs : inclusionSpecs content
        = if Text.allBlank rest then [] else (rest.splitOn ',').map unquoted := by
      rw [← hcontent]
      exact inclusionSpecs_append hword hne hrest
    refine ⟨fun hblank => ?_, fun hlist => ?_, fun spec hspec => of_mem_inclusionSpecs hspec⟩
    · rw [hspecs, if_pos hblank]
    · rw [hspecs, if_neg (by rw [hlist]; exact Bool.false_ne_true), List.length_map,
        length_splitOn, Nat.add_comm]

/-- Two files behind a tabulator and the end of a line, one with a blank in its name and marks that
do not match, the other with a mark on one side only. -/
theorem ofContent_specList_of_quotes :
    ofContent "@import-base64\t\n'a b\" ,  c/d.kit' ".toList
      = .inclusion ["a b".toList, "c/d.kit".toList] true := by
  have hblank : isBlank ' ' = true := by decide
  have ha : IsSpec "a b".toList := ⟨by decide, by decide, by decide, by simp [isQuote]⟩
  have hc : IsSpec "c/d.kit".toList := ⟨by decide, by decide, by decide, by simp [isQuote]⟩
  exact ofContent_specList.1 "@import-base64".toList (by decide) "\t\n".toList (by decide)
    (by decide) [⟨"'".toList, _, "\" ".toList, ha, by simp [isQuote, hblank]⟩,
      ⟨"  ".toList, _, "' ".toList, hc, by simp [isQuote, hblank]⟩]
    (List.cons_ne_nil _ _)

end Directive

end CommentMarkup
