/-
# A definition and a reference

A document that is a comment which gives a name a value, and behind it a comment which refers to
the name, is compiled to the value (`document_of_definition_and_reference`).  The sigils of the two
may differ, blanks may stand around what is in the comments, and the value may be any text without
blanks around it, except that it must not begin with an operator if only blanks separate it from the
name.  Nothing of this depends on the initial variables or on the settings, except that
the nil sentinel stands for the empty text.
-/
import CommentMarkup.Proofs.DefinitionLine
import CommentMarkup.Proofs.WrittenDirective

namespace CommentMarkup

/-! ### The comments -/

/-- What stands in a comment that refers to a name. -/
def referenceBody (sigil : Char) (name : Text) (optional : Bool) : Text :=
  sigil :: name ++ if optional then ['?'] else []

namespace Directive

variable {sigil : Char} {name : Text}

/-- A word has no blanks in it. -/
lemma IsVariable.isTrimmed (h : IsVariable sigil name) : Text.IsTrimmed (sigil :: name) := by
  have hword : ∀ c ∈ sigil :: name, isBlank c = false := by
    intro c hc
    have hends := h.endsName_eq_false c hc
    rw [endsName, Bool.or_eq_false_iff] at hends
    exact hends.1
  exact ⟨fun c hc => hword c (List.mem_of_mem_head? hc),
    fun c hc => hword c (List.mem_of_mem_getLast? hc)⟩

lemma IsVariable.isTrimmed_referenceBody (h : IsVariable sigil name) (optional : Bool) :
    Text.IsTrimmed (referenceBody sigil name optional) := by
  cases optional with
  | false => simpa [referenceBody] using h.isTrimmed
  | true => exact h.append_question.isTrimmed

lemma ofContent_referenceBody (h : IsVariable sigil name) (hlast : name.getLast? ≠ some '?')
    (optional : Bool) :
    ofContent (referenceBody sigil name optional) = .reference name optional := by
  cases optional with
  | false =>
    have hbody : referenceBody sigil name false = sigil :: name := by simp [referenceBody]
    rw [hbody, ofContent_name h, if_neg hlast]
  | true =>
    have hbody : referenceBody sigil name true = sigil :: (name ++ ['?']) := rfl
    have hmark : (name ++ ['?']).getLast? = some '?' := List.getLast?_concat
    rw [hbody, ofContent_name h.append_question, if_pos hmark, List.dropLast_concat]

end Directive

/-- The mark of an optional reference is no part of a closing mark. -/
lemma not_closing_infix_referenceBody {sigil : Char} {name p q : Text} (optional : Bool)
    (h : ¬ commentClosing <:+: p ++ referenceBody sigil name false ++ q) :
    ¬ commentClosing <:+: p ++ referenceBody sigil name optional ++ q := by
  have hplain : p ++ referenceBody sigil name false ++ q = p ++ sigil :: name ++ q := by
    simp [referenceBody]
  rw [hplain] at h
  cases optional with
  | false => rwa [hplain]
  | true =>
    intro hclosing
    have hsplit : p ++ referenceBody sigil name true ++ q = (p ++ sigil :: name) ++ '?' :: q := by
      simp [referenceBody]
    rw [hsplit] at hclosing
    rcases infix_of_infix_append_cons (by decide) hclosing with hbefore | hbehind
    · exact h (hbefore.trans (List.prefix_append _ q).isInfix)
    · exact h (hbehind.trans (List.suffix_append (p ++ sigil :: name) q).isInfix)

namespace Block

variable {sigil : Char} {body p q : Text}

/-- The blanks around what stands in a comment are not read. -/
lemma directive_comment_between_blanks (start : Nat) (hp : Text.allBlank p = true)
    (hq : Text.allBlank q = true) (hbody : Text.IsTrimmed body) (hfirst : body.head? = some sigil)
    (hsigil : sigil ∈ Directive.sigils) :
    (Block.mk start (comment (p ++ body ++ q))).isSpecial = true ∧
      (Block.mk start (comment (p ++ body ++ q))).directive = .ofContent body := by
  have hne : body ≠ [] := by
    rintro rfl
    simp at hfirst
  have htrim : Text.trim (p ++ body ++ q) = body := Text.trim_between_blanks hp hq hbody hne
  constructor
  · exact isSpecial_comment_of_trim (htrim.symm ▸ hfirst) hsigil
  · rw [directive, Directive.commentContent_comment, htrim]

/-- Two comments, one behind the other, are the blocks of their document. -/
lemma scan_two_comments {first second : Text} (hfirst : ¬ commentClosing <:+: first)
    (hsecond : ¬ commentClosing <:+: second) :
    scan (comment first ++ comment second)
      = .ok [⟨0, comment first⟩, ⟨(comment first).length, comment second⟩] := by
  have hlexeme : ∀ {body rest : Text}, ¬ commentClosing <:+: body → IsLexeme (comment body) rest :=
    fun hbody => .comment (isWholeComment_comment_iff.2 hbody)
  have hend : scanFrom (comment first).length (comment second ++ [])
      = .ok [⟨(comment first).length, comment second⟩] :=
    scanFrom_append_of_isLexeme (hlexeme hsecond) (scanFrom_nil _)
  rw [List.append_nil, ← Nat.zero_add (comment first).length] at hend
  have hall := scanFrom_append_of_isLexeme (hlexeme hfirst) hend
  rwa [Nat.zero_add] at hall

end Block

/-! ### The document -/

namespace Compile

variable {ctx : Context} {nested : Document → Scope → Run Text} {d : Document} {scope : Scope}
  {definition reference : Block} {name value : Text} {optional : Bool}

/-- What a definition gives to a name is left by a reference behind it. -/
lemma reaches_end_of_definition_and_reference (hspecial : definition.isSpecial = true)
    (hdefinition : definition.directive = .definition name value)
    (hspecial' : reference.isSpecial = true)
    (hreference : reference.directive = .reference name optional) :
    ∃ events, Reaches ctx nested d ⟨none, [definition, reference], scope⟩
      (if value = ctx.settings.nilSentinel then [] else value) events
      ⟨some reference, [], scope.define ctx.settings.nilSentinel name value⟩ := by
  have hdefines : definition.isDefinition = true := by
    rw [Block.isDefinition, hspecial, hdefinition]
    rfl
  have hscope : (block ctx nested d scope definition).scope
      = scope.define ctx.settings.nilSentinel name value := by
    rw [block_scope, Block.definition?_of_isSpecial hspecial, hdefinition]
    rfl
  have hleft : (block ctx nested d (scope.define ctx.settings.nilSentinel name value)
      reference).outcome = .ok (if value = ctx.settings.nilSentinel then [] else value) := by
    rw [block_outcome_of_reference hspecial' hreference, Scope.define, Scope.find?_put, if_pos rfl]
  have hdefine : Reaches ctx nested d ⟨none, [definition, reference], scope⟩ ([] ++ [])
      ((block ctx nested d scope definition).events ++ []) ⟨some definition, [reference],
        scope.define ctx.settings.nilSentinel name value⟩ := by
    refine .keep (not_collapses_of_isSpecial hspecial) (block_outcome_of_isDefinition hdefines) ?_
    rw [hscope]
    exact .here _
  obtain ⟨events, hreach⟩ := reaches_of_reference hdefine hspecial' hreference hleft
  exact ⟨_, hreach⟩

/-- A definition and a reference to it behind it are compiled to the value, whatever the variables
were before.

The name has no blanks and no operators, and it does not end with a question mark; the value is not
empty and has no blanks around it.  The two are separated by an operator with blanks around it, or
by blanks alone if the value does not begin with an operator (`Directive.IsAssignment`).  The two
sigils may differ, and blanks may stand around what is in either comment.  A value that is the nil
sentinel stands for the empty text.  An optional reference leaves the same. -/
theorem document_of_definition_and_reference (ctx : Context) (d : Document) (scope : Scope)
    (sigil sigil' : Char) (name op value p q p' q' : Text) (optional : Bool)
    (hname : Directive.IsVariable sigil name) (hname' : Directive.IsVariable sigil' name)
    (hlast : name.getLast? ≠ some '?') (hne : value ≠ []) (htrim : Text.trim value = value)
    (hop : Directive.IsAssignment value op) (hp : Text.allBlank p = true)
    (hq : Text.allBlank q = true) (hp' : Text.allBlank p' = true) (hq' : Text.allBlank q' = true)
    (hclosing : ¬ commentClosing <:+: p ++ assignmentBody sigil name op value ++ q)
    (hclosing' : ¬ commentClosing <:+: p' ++ referenceBody sigil' name false ++ q') :
    let text := comment (p ++ assignmentBody sigil name op value ++ q)
      ++ comment (p' ++ referenceBody sigil' name optional ++ q')
    (document ctx { d with text := text } scope).outcome
        = .ok (if value = ctx.settings.nilSentinel then [] else value) ∧
      (document ctx { d with text := text } scope).scope
        = scope.define ctx.settings.nilSentinel name value := by
  intro text
  have hscan := Block.scan_two_comments hclosing
    (not_closing_infix_referenceBody optional hclosing')
  obtain ⟨hspecial, hdefinition⟩ := Block.directive_comment_between_blanks 0 hp hq
    (Directive.isTrimmed_assignmentBody hname.mem_sigils hne htrim) rfl hname.mem_sigils
  obtain ⟨hspecial', hreference⟩ := Block.directive_comment_between_blanks
    (comment (p ++ assignmentBody sigil name op value ++ q)).length hp' hq'
    (hname'.isTrimmed_referenceBody optional) rfl hname'.mem_sigils
  rw [assignmentBody, Directive.ofContent_assignment hname hop hne htrim] at hdefinition
  rw [Directive.ofContent_referenceBody hname' hlast] at hreference
  obtain ⟨events, hreach⟩ :=
    reaches_end_of_definition_and_reference hspecial hdefinition hspecial' hreference
  obtain ⟨houtcome, hscope⟩ := documentWith_of_scan_ok (d := { d with text := text }) hscan
  rw [hreach.compile_eq] at houtcome hscope
  exact ⟨houtcome, hscope⟩

/-- A value that begins with an operator, and ends with the beginning of a closing mark, behind an
operator; the name is not letters only. -/
theorem document_of_definition_and_reference_of_marks :
    let ctx : Context := ⟨(⟨[], []⟩ : MemoryStore).toStore, {}, "/site".toList, Codec.builtIn⟩
    let d : Document :=
      { text := "<!--\u00a0@n-?!\t:\n= <!-- $x -\u2003--><!--$n-?!?-->".toList
        file := "/site/a.kit".toList, rootDir := "/site".toList, parents := [] }
    let initial : Scope := .ofList [("n-?!".toList, "old".toList)]
    (document ctx d initial).outcome = .ok "= <!-- $x -".toList := by
  intro ctx d initial
  have hletters : ("n-?!".toList.all fun c => !Directive.endsName c) = true := by decide
  have hname : ∀ c ∈ "n-?!".toList, Directive.endsName c = false := by
    intro c hc
    simpa using List.all_eq_true.1 hletters c hc
  have hcompiled := document_of_definition_and_reference ctx d initial '@' '$' "n-?!".toList
    "\t:\n".toList "= <!-- $x -".toList ['\u00a0'] ['\u2003'] [] [] true
    ⟨by decide, hname, by decide⟩ (Directive.isVariable_dollar hname) (by decide)
    (by decide) (by decide) (.operator ['\t'] ['\n'] ':' (by decide) (by decide) (by decide))
    (by decide) (by decide) (by decide) (by decide) (by decide) (by decide)
  exact hcompiled.1

end Compile

end CommentMarkup
