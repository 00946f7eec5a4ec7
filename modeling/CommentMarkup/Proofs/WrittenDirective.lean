/-
# Directives as they are written

A directive can be written out as a comment.  This file has the comments of two kinds of them, and
shows that each is read back as the directive that it was written for: a definition
`<!--$name = value-->` (`directive_definitionComment`), and an include of a list of files, with a
comma and a blank between two of them (`directive_inclusionComment`).

A text can stand in a comment if it has no closing mark (`isWholeComment_comment_iff`): the closing
mark does not overlap with itself, so one that ends behind the text does not begin inside it.
-/
import CommentMarkup.Proofs.Lexeme
import CommentMarkup.Proofs.Scan
import CommentMarkup.Proofs.SpecList

namespace CommentMarkup

/-! ### Comments -/

/-- A comment that holds a text. -/
def comment (body : Text) : Text := commentOpening ++ body ++ commentClosing

lemma opening_prefix_comment (body : Text) : commentOpening <+: comment body :=
  (List.prefix_append _ _).trans (List.prefix_append _ _)

/-- A mark stands on one side of a character that it does not have. -/
lemma infix_of_infix_append_cons {mark l r : Text} {x : Char} (hx : x ∉ mark)
    (h : mark <:+: l ++ x :: r) : mark <:+: l ∨ mark <:+: r := by
  induction l with
  | nil =>
    rcases List.infix_cons_iff.1 h with hfront | hlater
    · cases mark with
      | nil => exact Or.inl (List.nil_infix)
      | cons c mark =>
        obtain ⟨rfl, -⟩ := List.cons_prefix_cons.1 hfront
        exact absurd List.mem_cons_self hx
    · exact Or.inr hlater
  | cons c l ih =>
    rcases List.infix_cons_iff.1 h with hfront | hlater
    · -- the mark ends before the character
      by_cases hlength : mark.length ≤ (c :: l).length
      · exact Or.inl
          (List.prefix_of_prefix_length_le hfront (List.prefix_append _ _) hlength).isInfix
      · obtain ⟨more, hmore⟩ := List.prefix_of_prefix_length_le
          (List.prefix_append (c :: l) (x :: r)) hfront (by omega)
        obtain ⟨tail, htail⟩ := hfront
        rw [← hmore, List.append_assoc] at htail
        have hcons : more ++ tail = x :: r := List.append_cancel_left htail
        cases more with
        | nil => simp [← hmore] at hlength
        | cons y more =>
          obtain ⟨rfl, -⟩ := List.cons.inj hcons
          exact absurd (by simp [← hmore]) hx
    · exact (ih hlater).imp_left fun hin => List.infix_cons hin

/-- A text and the closing mark behind it have a closing mark in front of that one only if the
text has it. -/
lemma closing_infix_of_append {body : Text} (hne : body ≠ [])
    (h : commentClosing <+: body ++ commentClosing) : commentClosing <+: body := by
  rcases body with _ | ⟨a, _ | ⟨b, _ | ⟨c, body⟩⟩⟩
  · exact absurd rfl hne
  · simp [commentClosing] at h
  · simp [commentClosing] at h
  · exact List.prefix_of_prefix_length_le h (List.prefix_append _ _) (by simp [commentClosing])

lemma isWholeComment_comment_iff {body : Text} :
    Block.IsWholeComment (comment body) ↔ ¬ commentClosing <:+: body := by
  rw [Block.isWholeComment_iff]
  constructor
  · rintro ⟨body', hbody, hfirst⟩ ⟨before, after, rfl⟩
    obtain rfl : before ++ commentClosing ++ after = body' :=
      List.append_cancel_left (List.append_cancel_right hbody)
    refine hfirst before.length (by simp [commentClosing]) ⟨after ++ commentClosing, ?_⟩
    simp
  · intro hnot
    refine ⟨body, rfl, fun i hi hclosing => hnot ?_⟩
    rw [List.drop_append_of_le_length hi.le] at hclosing
    have hne : body.drop i ≠ [] := by simpa using hi
    exact (closing_infix_of_append hne hclosing).isInfix.trans (List.drop_suffix i body).isInfix

namespace Directive

lemma commentContent_comment (body : Text) : commentContent (comment body) = Text.trim body := by
  have hlength : (comment body).length - commentClosing.length
      = (commentOpening ++ body).length := by
    simp only [comment, List.length_append, Nat.add_sub_cancel]
  rw [commentContent, hlength, comment, List.take_left, List.drop_left]

lemma not_isBlank_of_mem_sigils {sigil : Char} (h : sigil ∈ sigils) : isBlank sigil = false := by
  have hsigils : ∀ c ∈ sigils, isBlank c = false :=
    List.forall_mem_cons.2 ⟨by decide, List.forall_mem_singleton.2 (by decide)⟩
  exact hsigils sigil h

end Directive

namespace Block

variable {start : Nat} {body : Text}

/-- A comment is a directive if what stands in it begins with a sigil behind its blanks. -/
lemma isSpecial_comment_of_trim {sigil : Char} (hfirst : (Text.trim body).head? = some sigil)
    (hsigil : sigil ∈ Directive.sigils) : (Block.mk start (comment body)).isSpecial = true := by
  have hcomment : (Block.mk start (comment body)).isComment = true :=
    List.isPrefixOf_iff_prefix.2 (opening_prefix_comment body)
  rw [isSpecial, hcomment, Directive.commentContent_comment, hfirst]
  simpa using hsigil

lemma isSpecial_comment {sigil : Char} (hfirst : body.head? = some sigil)
    (hsigil : sigil ∈ Directive.sigils) : (Block.mk start (comment body)).isSpecial = true := by
  refine isSpecial_comment_of_trim ((Text.head?_trim fun c hc => ?_).trans hfirst) hsigil
  obtain rfl := Option.some.inj (hfirst.symm.trans hc)
  exact Directive.not_isBlank_of_mem_sigils hsigil

lemma directive_comment (hbody : Text.trim body = body) :
    (Block.mk start (comment body)).directive = .ofContent body := by
  rw [directive, Directive.commentContent_comment, hbody]

end Block

/-! ### Definitions -/

/-- What stands in a comment that gives a name a value, with a text between the two. -/
def assignmentBody (sigil : Char) (name op value : Text) : Text := sigil :: name ++ (op ++ value)

/-- The same with an equals sign between them. -/
def definitionBody (name value : Text) : Text := '$' :: (name ++ ' ' :: '=' :: ' ' :: value)

/-- The comment that gives a name a value. -/
def definitionComment (name value : Text) : Text := comment (definitionBody name value)

namespace Directive

variable {name value : Text}

lemma definitionBody_eq (name value : Text) :
    definitionBody name value = assignmentBody '$' name " = ".toList value := rfl

lemma isTrimmed_assignmentBody {sigil : Char} {op : Text} (hsigil : sigil ∈ sigils)
    (hne : value ≠ []) (hvalue : Text.trim value = value) :
    Text.IsTrimmed (assignmentBody sigil name op value) := by
  rw [assignmentBody, ← List.append_assoc]
  refine Text.isTrimmed_append ?_ (by simp) hne (Text.trim_eq_self_iff.1 hvalue).last
  intro c hc
  obtain rfl : sigil = c := by simpa using hc
  exact not_isBlank_of_mem_sigils hsigil

lemma trim_definitionBody (hne : value ≠ []) (hvalue : Text.trim value = value) :
    Text.trim (definitionBody name value) = definitionBody name value := by
  rw [Text.trim_eq_self_iff, definitionBody_eq]
  exact isTrimmed_assignmentBody (by decide) hne hvalue

lemma ofContent_definitionBody (hname : ∀ c ∈ name, endsName c = false)
    (hvalue : Text.trim value = value) (hne : value ≠ []) :
    ofContent (definitionBody name value) = .definition name value := by
  have hassign : IsAssignment value " = ".toList :=
    .operator [' '] [' '] '=' (by decide) (by decide) (by decide)
  exact ofContent_assignment (isVariable_dollar hname) hassign hne hvalue

end Directive

namespace Block

variable {start : Nat} {name value : Text}

lemma isSpecial_definitionComment (start : Nat) (name value : Text) :
    (Block.mk start (definitionComment name value)).isSpecial = true :=
  isSpecial_comment (rfl : (definitionBody name value).head? = some '$') (by decide)

lemma directive_definitionComment (hname : ∀ c ∈ name, Directive.endsName c = false)
    (hvalue : Text.trim value = value) (hne : value ≠ []) :
    (Block.mk start (definitionComment name value)).directive = .definition name value :=
  (directive_comment (Directive.trim_definitionBody hne hvalue)).trans
    (Directive.ofContent_definitionBody hname hvalue hne)

end Block

/-! ### Includes -/

/-- The first word of an include directive. -/
def inclusionWord (base64 : Bool) : Text :=
  if base64 then "@include-base64".toList else "@include".toList

/-- What stands in a comment that includes some files. -/
def inclusionBody (base64 : Bool) (specs : List Text) : Text :=
  inclusionWord base64 ++ ' ' :: List.intercalate [',', ' '] specs

/-- The comment that includes some files. -/
def inclusionComment (base64 : Bool) (specs : List Text) : Text :=
  comment (inclusionBody base64 specs)

namespace Directive

variable {base64 : Bool} {specs : List Text}

/-- A comma and a blank stand between two files of a list; cut at the comma, the blank goes with
the file behind it. -/
lemma intercalate_comma_blank (s : Text) (rest : List Text) :
    List.intercalate [',', ' '] (s :: rest)
      = List.intercalate [','] (s :: rest.map (' ' :: ·)) := by
  induction rest generalizing s with
  | nil => rfl
  | cons next rest ih =>
    rw [List.intercalate_cons_cons, List.map_cons, List.intercalate_cons_cons, ih next]
    cases rest with
    | nil => simp
    | cons _ _ => simp [List.intercalate_cons_cons]

lemma isTrimmed_intercalate (hspecs : ∀ s ∈ specs, IsSpec s) (hne : specs ≠ []) :
    List.intercalate [',', ' '] specs ≠ [] ∧
      Text.IsTrimmed (List.intercalate [',', ' '] specs) := by
  induction specs with
  | nil => exact absurd rfl hne
  | cons s rest ih =>
    have hs := hspecs s List.mem_cons_self
    have htrim := Text.trim_eq_self_iff.1 hs.trimmed
    cases rest with
    | nil =>
      rw [List.intercalate_singleton]
      exact ⟨hs.ne_nil, htrim⟩
    | cons next rest =>
      obtain ⟨hlater, htrimmed⟩ :=
        ih (fun t ht => hspecs t (List.mem_cons_of_mem _ ht)) (List.cons_ne_nil _ _)
      rw [List.intercalate_cons_cons]
      refine ⟨by simp, Text.isTrimmed_append ?_ (by simp) hlater htrimmed.last⟩
      rw [List.head?_append_of_ne_nil _ hs.ne_nil]
      exact htrim.first

lemma inclusionWord_mem (base64 : Bool) : inclusionWord base64 ∈ inclusionWords := by
  cases base64 <;> decide

/-- Cut at its commas, a list that is written like this has the names in it. -/
lemma map_unquoted_intercalate (hspecs : ∀ s ∈ specs, IsSpec s) (hne : specs ≠ []) :
    ((' ' :: List.intercalate [',', ' '] specs).splitOn ',').map unquoted = specs := by
  obtain ⟨s, rest, rfl⟩ := List.exists_cons_of_ne_nil hne
  obtain ⟨hs, hlater⟩ := List.forall_mem_cons.1 hspecs
  have hblank : Text.allBlank [' '] = true := by decide
  have hcomma : ∀ p ∈ s :: rest.map (' ' :: ·), ',' ∉ p := by
    refine List.forall_mem_cons.2 ⟨hs.not_mem, List.forall_mem_map.2 fun t ht => ?_⟩
    simpa using (hlater t ht).not_mem
  have hread : ∀ t ∈ rest, unquoted (' ' :: t) = t := fun t ht =>
    (unquoted_blanks_append hblank t).trans (unquoted_eq_self (hlater t ht))
  have hsplit := map_unquoted_splitOn hblank hcomma (List.cons_ne_nil _ _)
  rw [List.singleton_append, ← intercalate_comma_blank, List.map_cons, unquoted_eq_self hs,
    List.map_map] at hsplit
  rw [hsplit]
  exact congrArg (s :: ·) ((List.map_congr_left hread).trans (List.map_id _))

lemma ofContent_inclusionBody (hspecs : ∀ s ∈ specs, IsSpec s) (hne : specs ≠ []) :
    ofContent (inclusionBody base64 specs) = .inclusion specs base64 := by
  obtain ⟨hword, ⟨keyword, hkeyword, hbegin⟩, hbase64⟩ :=
    of_mem_inclusionWords (inclusionWord_mem base64)
  have hmark : decide ("-base64".toList <:+ inclusionWord base64) = base64 := by
    cases base64 <;> decide
  have hrest : ∀ c ∈ (' ' :: List.intercalate [',', ' '] specs).head?, isBlank c = true := by
    rintro c ⟨⟩
    decide
  obtain ⟨s, hs⟩ := List.exists_mem_of_ne_nil specs hne
  have hnamed : s <:+: ' ' :: List.intercalate [',', ' '] specs :=
    List.infix_cons (infix_intercalate_of_mem hs)
  rw [inclusionBody, ofContent_inclusion hkeyword hbegin hword hrest, hbase64, hmark,
    inclusionSpecs_append hword (ne_nil_of_keyword hkeyword hbegin) hrest,
    if_neg (by rw [(hspecs s hs).not_allBlank hnamed]; exact Bool.false_ne_true),
    map_unquoted_intercalate hspecs hne]

lemma trim_inclusionBody (hspecs : ∀ s ∈ specs, IsSpec s) (hne : specs ≠ []) :
    Text.trim (inclusionBody base64 specs) = inclusionBody base64 specs := by
  obtain ⟨hlist, htrimmed⟩ := isTrimmed_intercalate hspecs hne
  have hbody : inclusionBody base64 specs
      = (inclusionWord base64 ++ [' ']) ++ List.intercalate [',', ' '] specs := by
    simp [inclusionBody]
  rw [Text.trim_eq_self_iff, hbody]
  refine Text.isTrimmed_append ?_ (by simp) hlist htrimmed.last
  intro c hc
  have hat : (inclusionWord base64 ++ [' ']).head? = some '@' := by
    cases base64 <;> rfl
  obtain rfl := Option.some.inj (hat.symm.trans hc)
  decide

end Directive

namespace Block

variable {start : Nat} {base64 : Bool} {specs : List Text}

lemma isSpecial_inclusionComment (start : Nat) (base64 : Bool) (specs : List Text) :
    (Block.mk start (inclusionComment base64 specs)).isSpecial = true := by
  have hfirst : (inclusionBody base64 specs).head? = some '@' := by
    cases base64 <;> rfl
  exact isSpecial_comment hfirst (by decide)

lemma directive_inclusionComment (hspecs : ∀ s ∈ specs, IsSpec s) (hne : specs ≠ []) :
    (Block.mk start (inclusionComment base64 specs)).directive = .inclusion specs base64 :=
  (directive_comment (Directive.trim_inclusionBody hspecs hne)).trans
    (Directive.ofContent_inclusionBody hspecs hne)

end Block

end CommentMarkup
