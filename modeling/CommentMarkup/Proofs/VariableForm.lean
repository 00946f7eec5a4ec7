/-
# The written form of a variable directive

There are many ways to write a directive about a variable: with blanks around the parts, and with
an operator or just blanks between the name and the value.  What is read of it does not depend on
them, and it can be written out again in one form (`written?`), which is read as the same directive
(`ofContent_written`).  This holds however odd the name and the value are: a name may be empty or
have several question marks at its end, and a value may begin with an operator.

A directive is a reference exactly if nothing but blanks and at most one operator follows its word
(`IsBare`).
-/
import CommentMarkup.Proofs.DefinedValue
import CommentMarkup.Proofs.Sigils

namespace CommentMarkup

namespace Text

variable {s : Text}

lemma trim_eq_nil_iff : trim s = [] ↔ allBlank s = true := by
  constructor
  · intro h
    have hleft : ∀ c ∈ trimLeft s, isBlank c = true := List.rdropWhile_eq_nil_iff.1 h
    refine List.all_eq_true.2 fun c hc => ?_
    rw [← List.takeWhile_append_dropWhile (p := isBlank) (l := s)] at hc
    rcases List.mem_append.1 hc with hc | hc
    · exact List.all_eq_true.1 List.all_takeWhile c hc
    · exact hleft c hc
  · intro h
    have hall := trim_blanks_append h []
    rwa [List.append_nil] at hall

/-- Only blanks are trimmed. -/
lemma exists_around_trim (s : Text) :
    ∃ p q, allBlank p = true ∧ allBlank q = true ∧ s = p ++ trim s ++ q := by
  refine ⟨s.takeWhile isBlank, (trimLeft s).rtakeWhile isBlank, List.all_takeWhile,
    List.all_eq_true.2 fun c hc => List.mem_rtakeWhile_imp hc, ?_⟩
  have hright : trim s ++ (trimLeft s).rtakeWhile isBlank = trimLeft s :=
    List.rdropWhile_append_rtakeWhile
  rw [List.append_assoc, hright]
  exact List.takeWhile_append_dropWhile.symm

end Text

namespace Directive

/-- The form in which a directive about a variable is written out. -/
def written? (sigil : Char) : Directive → Option Text
  | .definition name value => some (assignmentBody sigil name " = ".toList value)
  | .reference name optional => some (referenceBody sigil name optional)
  | .inclusion .. | .compilation => none

/-- What can follow the word of a reference: blanks, with at most one operator among them. -/
inductive IsBare : Text → Prop where
  /-- There are only blanks. -/
  | blanks {rest : Text} (blank : Text.allBlank rest = true) : IsBare rest
  /-- There is one operator. -/
  | operator {before after : Text} {c : Char} (blank_before : Text.allBlank before = true)
      (operator : isOperator c = true) (blank_after : Text.allBlank after = true) :
      IsBare (before ++ c :: after)

/-- What follows the word that a directive begins with. -/
def behindWord (content : Text) : Text := content.dropWhile fun c => !endsName c

/-- A directive about a variable that is read back from the form in which it is written out. -/
structure ReadsBack (sigil : Char) (content : Text) : Prop where
  /-- It is a definition with a trimmed value or a reference, and its name is a word. -/
  parts : (∃ name value, ofContent content = .definition name value ∧ value ≠ [] ∧
      Text.trim value = value ∧ ∀ c ∈ name, endsName c = false) ∨
    ∃ name optional, ofContent content = .reference name optional ∧
      ∀ c ∈ name, endsName c = false
  /-- It is read back. -/
  written : ∃ form, (ofContent content).written? sigil = some form ∧
    ofContent form = ofContent content
  /-- It is a reference if nothing of a value follows its word. -/
  reference_iff : (∃ name optional, ofContent content = .reference name optional) ↔
    IsBare (behindWord content)

variable {sigil : Char} {name rest content keyword : Text}

/-! ### The value -/

/-- What is read as a value is trimmed. -/
lemma trim_value (rest : Text) :
    Text.trim (dropOperator (Text.trim rest)) = dropOperator (Text.trim rest) := by
  have htrim : ∀ s, Text.trim (Text.trim s) = Text.trim s := fun s =>
    Text.trim_eq_self_iff.2 (Text.isTrimmed_trim s)
  cases hrest : Text.trim rest with
  | nil => rfl
  | cons c more =>
    rw [dropOperator]
    split
    · exact htrim more
    · rw [← hrest, htrim]

/-- There is no value if there are only blanks and at most one operator. -/
lemma value_eq_nil_iff : dropOperator (Text.trim rest) = [] ↔ IsBare rest := by
  constructor
  · intro h
    obtain ⟨p, q, hp, hq, hsplit⟩ := Text.exists_around_trim rest
    cases hrest : Text.trim rest with
    | nil => exact .blanks (Text.trim_eq_nil_iff.1 hrest)
    | cons c more =>
      rw [hrest, dropOperator] at h
      split at h
      · next hc =>
        have hmore : Text.allBlank (more ++ q) = true := by
          rw [Text.allBlank, List.all_append, Bool.and_eq_true]
          exact ⟨Text.trim_eq_nil_iff.1 h, hq⟩
        rw [hsplit, hrest, List.append_assoc, List.cons_append]
        exact .operator hp hc hmore
      · simp at h
  · rintro (hblank | ⟨hbefore, hc, hafter⟩)
    · rw [Text.trim_eq_nil_iff.2 hblank]
      rfl
    · next before after c =>
      -- the operator is all that is left between the blanks
      have hsingle : Text.IsTrimmed [c] := by
        constructor <;> simpa using isBlank_eq_false_of_isOperator hc
      have htrim := Text.trim_between_blanks hbefore hafter hsingle (List.cons_ne_nil _ _)
      rw [List.append_assoc, List.singleton_append] at htrim
      rw [htrim, dropOperator, if_pos hc]
      rfl

/-! ### Reading back -/

lemma readsBack_of_isVariable (h : IsVariable sigil name)
    (hrest : ∀ c ∈ rest.head?, endsName c = true) : ReadsBack sigil (sigil :: name ++ rest) := by
  have hbehind : behindWord (sigil :: name ++ rest) = rest :=
    (takeWhile_dropWhile_append h.endsName_eq_false hrest).2
  have hread := ofContent_variable h hrest
  by_cases hvalue : dropOperator (Text.trim rest) = []
  · -- a reference, written as its word
    rw [if_neg (not_not.2 hvalue)] at hread
    have hbare : IsBare (behindWord (sigil :: name ++ rest)) :=
      hbehind.symm ▸ value_eq_nil_iff.1 hvalue
    have hword := ofContent_name h
    by_cases hlast : name.getLast? = some '?'
    · rw [if_pos hlast] at hread hword
      have hform : referenceBody sigil name.dropLast true = sigil :: name := by
        obtain ⟨before, rfl⟩ := List.getLast?_eq_some_iff.1 hlast
        simp [referenceBody]
      refine ⟨Or.inr ⟨_, _, hread, fun c hc => h.unended c ?_⟩, ⟨sigil :: name, ?_, ?_⟩,
        iff_of_true ⟨_, _, hread⟩ hbare⟩
      · exact (List.dropLast_prefix name).subset hc
      · rw [hread, written?, hform]
      · rw [hread, hword]
    · rw [if_neg hlast] at hread hword
      have hform : referenceBody sigil name false = sigil :: name := by simp [referenceBody]
      refine ⟨Or.inr ⟨_, _, hread, h.unended⟩, ⟨sigil :: name, ?_, ?_⟩,
        iff_of_true ⟨_, _, hread⟩ hbare⟩
      · rw [hread, written?, hform]
      · rw [hread, hword]
  · -- a definition
    rw [if_pos hvalue] at hread
    have hassign : IsAssignment (dropOperator (Text.trim rest)) " = ".toList :=
      .operator [' '] [' '] '=' (by decide) (by decide) (by decide)
    refine ⟨Or.inl ⟨_, _, hread, hvalue, trim_value rest, h.unended⟩,
      ⟨assignmentBody sigil name " = ".toList (dropOperator (Text.trim rest)), ?_, ?_⟩,
      iff_of_false ?_ ?_⟩
    · rw [hread, written?]
    · rw [hread]
      exact ofContent_assignment h hassign hvalue (trim_value rest)
    · rintro ⟨name', optional, hreference⟩
      rw [hread] at hreference
      simp at hreference
    · rw [hbehind]
      exact fun hbare => hvalue (value_eq_nil_iff.2 hbare)

/-- The written form of a directive about a variable.

Every directive that begins with the sigil of variables only, and every one that begins with the
other sigil but not like a directive about something else, is a definition with a trimmed value that
is not empty, or a reference; its name has neither blanks nor operators in it, and it is read back
from its written form.  It is a reference exactly if nothing but blanks and at most one operator
follows its word.  A directive that begins like one about something else is none of this. -/
theorem ofContent_written :
    (∀ r, ReadsBack '$' ('$' :: r)) ∧
      ∀ r, ReadsBack '@' ('@' :: r) ↔ ∀ keyword ∈ keywords, ¬ keyword <+: '@' :: r := by
  refine ⟨fun r => ?_, fun r => ⟨fun h keyword hkeyword hbegins => ?_, fun hkeyword => ?_⟩⟩
  · obtain ⟨name, rest, rfl, hname, hrest⟩ := exists_name r
    exact readsBack_of_isVariable (isVariable_dollar hname) hrest
  · obtain ⟨form, hform, -⟩ := h.written
    rcases ofContent_of_keyword hkeyword hbegins with ⟨specs, base64, hother⟩ | hother
    · rw [hother, written?] at hform
      simp at hform
    · rw [hother, written?] at hform
      simp at hform
  · obtain ⟨name, rest, rfl, hname, hrest⟩ := exists_name r
    have hvariable : IsVariable '@' name := isVariable_at hname fun keyword hmem hbegins =>
      hkeyword keyword hmem (hbegins.trans (List.prefix_append _ rest))
    exact readsBack_of_isVariable hvariable hrest

/-- An empty name with question marks, and a value that begins with operators. -/
theorem ofContent_written_of_operators :
    ofContent "@??".toList = .reference "?".toList true ∧
      (Directive.reference "?".toList true).written? '@' = some "@??".toList ∧
      ofContent "@a?== : b".toList = .definition "a?".toList "= : b".toList ∧
      ReadsBack '@' "@a?== : b".toList :=
  ⟨by decide, by decide, by decide, (ofContent_written.2 "a?== : b".toList).2 (by decide)⟩

end Directive

end CommentMarkup
