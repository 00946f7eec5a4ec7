/-
# The two sigils

A variable can be written with either sigil, but the other directives begin with `@` only.  They
are recognised by how the first word of a directive begins, not by the whole word: `@includes x` is
an include of `x`, while `$includes x` defines a variable (`sigils_differ_of_longer_word`).  So it
makes no difference with which sigil a directive begins exactly if its first word does not begin
like one of the other directives (`ofContent_sigil_iff`).
-/
import CommentMarkup.Proofs.SpecList

namespace CommentMarkup.Directive

/-- The word that a directive begins with, up to the first blank or operator. -/
def leadingWord (content : Text) : Text := content.takeWhile fun c => !endsName c

/-- The words of the directives that are not about variables. -/
def reservedWords : List Text := compilationKeyword :: inclusionWords

variable {sigil : Char} {name rest content keyword : Text}

/-- What follows a sigil is a name and something that ends it. -/
lemma exists_name (r : Text) :
    ∃ name rest, r = name ++ rest ∧ (∀ c ∈ name, endsName c = false) ∧
      ∀ c ∈ rest.head?, endsName c = true := by
  refine ⟨r.takeWhile fun c => !endsName c, r.dropWhile fun c => !endsName c,
    List.takeWhile_append_dropWhile.symm, fun c hc => ?_, fun c hc => ?_⟩
  · simpa using List.all_eq_true.1 List.all_takeWhile c hc
  · have hnot := List.head?_dropWhile_not (fun c => !endsName c) r
    rw [Option.mem_def.1 hc] at hnot
    simpa using hnot

lemma isVariable_at (hname : ∀ c ∈ name, endsName c = false)
    (hkeyword : ∀ keyword ∈ keywords, ¬ keyword <+: '@' :: name) : IsVariable '@' name :=
  ⟨by decide, hname, hkeyword⟩

/-- A name that is a variable with one sigil is one with every sigil. -/
lemma IsVariable.of_at (h : IsVariable '@' name) (hsigil : sigil ∈ sigils) :
    IsVariable sigil name := by
  rcases List.mem_cons.1 hsigil with rfl | hsigil
  · exact h
  · obtain rfl := List.mem_singleton.1 hsigil
    exact isVariable_dollar h.unended

lemma leadingWord_append (h : IsVariable '$' name) (hrest : ∀ c ∈ rest.head?, endsName c = true) :
    leadingWord ('@' :: (name ++ rest)) = '@' :: name := by
  have hword : ∀ c ∈ '@' :: name, endsName c = false :=
    List.forall_mem_cons.2 ⟨by decide, h.unended⟩
  exact (takeWhile_dropWhile_append hword hrest).1

/-- A directive that begins like one that is not about a variable is not about one. -/
lemma ofContent_of_keyword (hkeyword : keyword ∈ keywords) (h : keyword <+: content) :
    (∃ specs base64, ofContent content = .inclusion specs base64) ∨
      ofContent content = .compilation := by
  have hbegins : keyword.isPrefixOf content = true := List.isPrefixOf_iff_prefix.2 h
  rw [ofContent]
  split
  · exact Or.inl ⟨_, _, rfl⟩
  · next hinclude =>
    refine Or.inr ?_
    rcases List.mem_cons.1 hkeyword with rfl | hkeyword
    · rw [if_pos hbegins]
    · rw [List.any_eq_true, not_exists] at hinclude
      exact absurd ⟨hkeyword, hbegins⟩ (hinclude keyword)

/-- What begins with the sigil of variables only is about a variable. -/
lemma ofContent_dollar_ne (h : IsVariable '$' name)
    (hrest : ∀ c ∈ rest.head?, endsName c = true) :
    (∀ specs base64, ofContent ('$' :: (name ++ rest)) ≠ .inclusion specs base64) ∧
      ofContent ('$' :: (name ++ rest)) ≠ .compilation := by
  have hread : ofContent ('$' :: (name ++ rest)) = _ := ofContent_variable h hrest
  rw [hread]
  constructor
  · intro specs base64
    split
    · simp
    · split <;> simp
  · split
    · simp
    · split <;> simp

/-- Which sigil a directive begins with.

It is read alike with both exactly if its first word, written with `@`, does not begin like a
directive that is not about a variable.  So a name which neither has a blank or an operator in it
nor, behind `@`, begins like such a directive is that of a variable with either sigil.  It can be
given any value behind an operator, and behind blanks alone any value that does not begin with an
operator itself; and it can be referred to with or without a question mark. -/
theorem ofContent_sigil_iff (r name : Text) :
    (ofContent ('@' :: r) = ofContent ('$' :: r) ↔
        ∀ keyword ∈ keywords, ¬ keyword <+: leadingWord ('@' :: r)) ∧
      ((∀ c ∈ name, endsName c = false) →
        (∀ keyword ∈ keywords, ¬ keyword <+: '@' :: name) → ∀ sigil ∈ sigils,
          (∀ op value, IsAssignment value op → value ≠ [] → Text.trim value = value →
            ofContent (sigil :: name ++ (op ++ value)) = .definition name value) ∧
          ofContent (sigil :: (name ++ ['?'])) = .reference name true ∧
          (name.getLast? ≠ some '?' → ofContent (sigil :: name) = .reference name false)) := by
  constructor
  · obtain ⟨name, rest, rfl, hname, hrest⟩ := exists_name r
    have hdollar : IsVariable '$' name := isVariable_dollar hname
    rw [leadingWord_append hdollar hrest]
    constructor
    · intro hsame keyword hkeyword hbegin
      obtain ⟨hinclusion, hcompilation⟩ := ofContent_dollar_ne hdollar hrest
      rw [← hsame] at hinclusion hcompilation
      rcases ofContent_of_keyword hkeyword (hbegin.trans (List.prefix_append _ rest)) with
        ⟨specs, base64, h⟩ | h
      · exact hinclusion specs base64 h
      · exact hcompilation h
    · intro hkeyword
      exact (ofContent_variable (isVariable_at hname hkeyword) hrest).trans
        (ofContent_variable hdollar hrest).symm
  · intro hname hkeyword sigil hsigil
    have hvariable : IsVariable sigil name := (isVariable_at hname hkeyword).of_at hsigil
    refine ⟨fun op value hop hne htrim => ofContent_assignment hvariable hop hne htrim, ?_, ?_⟩
    · rw [ofContent_name hvariable.append_question, List.getLast?_concat, if_pos rfl,
        List.dropLast_concat]
    · intro hlast
      rw [ofContent_name hvariable, if_neg hlast]

/-- A name that begins like the word of an include but for its last letter. -/
theorem ofContent_sigil_iff_of_shorter_word :
    ofContent "@includ = x".toList = ofContent "$includ = x".toList ∧
      ofContent "@includ: x".toList = .definition "includ".toList "x".toList ∧
      ofContent "@includ?".toList = .reference "includ".toList true := by
  have hletters : ("includ".toList.all fun c => !endsName c) = true := by decide
  have hname : ∀ c ∈ "includ".toList, endsName c = false := by
    intro c hc
    simpa using List.all_eq_true.1 hletters c hc
  have hkeyword : ∀ keyword ∈ keywords, ¬ keyword <+: '@' :: "includ".toList := by decide
  obtain ⟨hsame, hvariable⟩ := ofContent_sigil_iff "includ = x".toList "includ".toList
  obtain ⟨hdefinition, hreference, -⟩ := hvariable hname hkeyword '@' (by decide)
  exact ⟨hsame.2 (by decide), hdefinition ": ".toList "x".toList
      (.operator [] [' '] ':' (by decide) (by decide) (by decide)) (by decide) (by decide),
    hreference⟩

/-- A name that is longer than the word of an include. -/
theorem sigils_differ_of_longer_word :
    let r := "includes x".toList
    Text.trim ('@' :: r) = '@' :: r ∧ leadingWord ('@' :: r) ∉ reservedWords ∧
      ofContent ('@' :: r) = .inclusion ["x".toList] false ∧
      ofContent ('$' :: r) = .definition "includes".toList "x".toList := by
  decide

end CommentMarkup.Directive
