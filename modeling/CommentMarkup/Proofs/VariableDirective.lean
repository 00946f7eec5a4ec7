/-
# Reading a variable directive

A variable directive begins with a word, which is a sigil and a name.  Behind it may come a value,
after an operator with blanks around it or after blanks alone (`IsAssignment`).  Blanks alone are
enough only for a value that does not begin with an operator, since this one would be taken away.
The word is over at the first blank or operator, so nothing behind it makes it one of the keywords.
The directive is a definition if a value is left when blanks and one operator have been taken away,
and a reference otherwise (`ofContent_variable`).
-/
import CommentMarkup.Directive
import Mathlib.Data.List.DropRight
import Mathlib.Tactic.Lemma

namespace CommentMarkup

/-! ### Trimming -/

namespace Text

variable {s t : Text}

/-- A text that neither begins nor ends with a blank. -/
structure IsTrimmed (s : Text) : Prop where
  /-- Its first character is not blank. -/
  first : ∀ c ∈ s.head?, isBlank c = false
  /-- Its last character is not blank. -/
  last : ∀ c ∈ s.getLast?, isBlank c = false

lemma trimLeft_eq_self (h : ∀ c ∈ s.head?, isBlank c = false) : trimLeft s = s := by
  cases s with
  | nil => rfl
  | cons c r => simp [trimLeft, h c rfl]

lemma trimRight_eq_self (h : ∀ c ∈ s.getLast?, isBlank c = false) : trimRight s = s := by
  refine List.rdropWhile_eq_self_iff.2 fun hs => ?_
  rw [h _ (List.getLast?_eq_some_getLast hs)]
  exact Bool.false_ne_true

lemma isTrimmed_trim (s : Text) : IsTrimmed (trim s) := by
  constructor
  · intro c hc
    obtain ⟨more, hmore⟩ : trim s <+: trimLeft s := List.rdropWhile_prefix isBlank _
    have hfirst : (trimLeft s).head? = some c := by
      rw [← hmore, List.head?_append, Option.mem_def.1 hc, Option.some_or]
    have hnot := List.head?_dropWhile_not isBlank s
    rw [trimLeft] at hfirst
    rw [hfirst] at hnot
    exact hnot
  · intro c hc
    obtain ⟨before, hbefore⟩ := List.getLast?_eq_some_iff.1 hc
    have hne : trim s ≠ [] := by simp [hbefore]
    have hnot : ¬ isBlank ((trim s).getLast hne) = true :=
      List.rdropWhile_last_not isBlank (trimLeft s) hne
    have hlast : (trim s).getLast hne = c :=
      Option.some.inj ((List.getLast?_eq_some_getLast hne).symm.trans hc)
    simpa [hlast] using hnot

lemma trim_eq_self_iff : trim s = s ↔ IsTrimmed s := by
  constructor
  · intro h
    exact h ▸ isTrimmed_trim s
  · intro h
    rw [trim, trimLeft_eq_self h.first, trimRight_eq_self h.last]

/-- Trimming keeps a first character that is not blank. -/
lemma head?_trim (h : ∀ c ∈ s.head?, isBlank c = false) : (trim s).head? = s.head? := by
  rw [trim, trimLeft_eq_self h]
  cases s with
  | nil => rfl
  | cons c r =>
    obtain ⟨more, hmore⟩ : trimRight (c :: r) <+: c :: r := List.rdropWhile_prefix isBlank _
    have hne : trimRight (c :: r) ≠ [] := by
      intro hnil
      have hblank := List.rdropWhile_eq_nil_iff.1 hnil c List.mem_cons_self
      simp [h c rfl] at hblank
    have hsame : (trimRight (c :: r) ++ more).head? = (trimRight (c :: r)).head? :=
      List.head?_append_of_ne_nil _ hne
    rw [← hsame, hmore]

lemma trim_blanks_append {p : Text} (hp : allBlank p = true) (s : Text) :
    trim (p ++ s) = trim s := by
  have hskip : trimLeft (p ++ s) = trimLeft s :=
    List.dropWhile_append_of_pos (List.all_eq_true.1 hp)
  rw [trim, hskip, trim]

lemma trimRight_append_blanks {q : Text} (hq : allBlank q = true) (s : Text) :
    trimRight (s ++ q) = trimRight s := by
  have hskip : (q.reverse ++ s.reverse).dropWhile isBlank = s.reverse.dropWhile isBlank :=
    List.dropWhile_append_of_pos fun c hc => List.all_eq_true.1 hq c (List.mem_reverse.1 hc)
  rw [trimRight, List.reverse_append, hskip, trimRight]

/-- Blanks around a trimmed text are all that is taken away. -/
lemma trim_between_blanks {p q : Text} (hp : allBlank p = true) (hq : allBlank q = true)
    (hs : IsTrimmed s) (hne : s ≠ []) : trim (p ++ s ++ q) = s := by
  have hfirst : trimLeft (s ++ q) = s ++ q := by
    refine trimLeft_eq_self ?_
    rw [List.head?_append_of_ne_nil _ hne]
    exact hs.first
  rw [List.append_assoc, trim_blanks_append hp, trim, hfirst, trimRight_append_blanks hq,
    trimRight_eq_self hs.last]

/-- A text stays trimmed behind one that begins without a blank. -/
lemma isTrimmed_append (hs : ∀ c ∈ s.head?, isBlank c = false) (hne : s ≠ []) (ht : t ≠ [])
    (hlast : ∀ c ∈ t.getLast?, isBlank c = false) : IsTrimmed (s ++ t) := by
  constructor
  · rwa [List.head?_append_of_ne_nil _ hne]
  · rwa [List.getLast?_append_of_ne_nil _ ht]

end Text

namespace Directive

variable {sigil : Char} {name rest word keyword op value : Text}

/-! ### The word -/

/-- Where a word stops, the search for its end stops. -/
lemma takeWhile_dropWhile_append {stops : Char → Bool} (hword : ∀ c ∈ word, stops c = false)
    (hrest : ∀ c ∈ rest.head?, stops c = true) :
    (word ++ rest).takeWhile (fun c => !stops c) = word ∧
      (word ++ rest).dropWhile (fun c => !stops c) = rest := by
  have hpass : ∀ c ∈ word, (!stops c) = true := by
    intro c hc
    rw [hword c hc]
    rfl
  rw [List.takeWhile_append_of_pos hpass, List.dropWhile_append_of_pos hpass]
  cases rest with
  | nil => simp
  | cons c more => simp [hrest c rfl]

/-- The beginnings of the directives that are not about variables. -/
def keywords : List Text := compilationKeyword :: inclusionKeywords

/-- A sigil and a name that are read as those of a variable. -/
structure IsVariable (sigil : Char) (name : Text) : Prop where
  /-- The sigil begins a directive. -/
  mem_sigils : sigil ∈ sigils
  /-- No character of the name ends it. -/
  unended : ∀ c ∈ name, endsName c = false
  /-- They do not begin like another directive. -/
  not_keyword : ∀ keyword ∈ keywords, ¬ keyword <+: sigil :: name

/-- A name whose variable has the sigil of variables only. -/
lemma isVariable_dollar (hname : ∀ c ∈ name, endsName c = false) : IsVariable '$' name := by
  refine ⟨by decide, hname, fun keyword hkeyword => ?_⟩
  have hfirst : ∀ keyword ∈ keywords, keyword.head? = some '@' := by decide
  rintro ⟨more, hmore⟩
  have hne : keyword ≠ [] := by
    rintro rfl
    simpa using hfirst [] hkeyword
  have hhead := congrArg List.head? hmore
  rw [List.head?_append_of_ne_nil _ hne, hfirst keyword hkeyword] at hhead
  simp at hhead

lemma IsVariable.endsName_eq_false (h : IsVariable sigil name) :
    ∀ c ∈ sigil :: name, endsName c = false := by
  have hsigils : ∀ c ∈ sigils, endsName c = false :=
    List.forall_mem_cons.2 ⟨by decide, List.forall_mem_singleton.2 (by decide)⟩
  exact List.forall_mem_cons.2 ⟨hsigils sigil h.mem_sigils, h.unended⟩

/-- The letters of a keyword can stand in a name. -/
lemma endsName_eq_false_of_mem_keyword {c : Char} (hkeyword : keyword ∈ keywords)
    (hc : c ∈ keyword) : endsName c = false := by
  have hletters : (keywords.all fun keyword => keyword.all fun c => !endsName c) = true := by
    decide
  have hletter := List.all_eq_true.1 (List.all_eq_true.1 hletters keyword hkeyword) c hc
  simpa using hletter

/-- A keyword that begins a text ends where something follows that it cannot have. -/
lemma keyword_prefix_of_append (hrest : ∀ c ∈ rest.head?, c ∉ keyword)
    (h : keyword <+: word ++ rest) : keyword <+: word := by
  rcases List.prefix_or_prefix_of_prefix h (List.prefix_append word rest) with hin | ⟨more, rfl⟩
  · exact hin
  · -- what the keyword has behind the word begins the rest
    have hmore : more <+: rest := (List.prefix_append_right_inj word).1 h
    cases more with
    | nil => simp
    | cons c more =>
      obtain ⟨rest', rfl⟩ := hmore
      exact absurd (by simp) (hrest c rfl)

lemma IsVariable.not_keyword_append (h : IsVariable sigil name)
    (hrest : ∀ c ∈ rest.head?, endsName c = true) :
    ∀ keyword ∈ keywords, keyword.isPrefixOf (sigil :: name ++ rest) = false := by
  intro keyword hkeyword
  rw [← Bool.not_eq_true, List.isPrefixOf_iff_prefix]
  refine fun hprefix =>
    h.not_keyword keyword hkeyword (keyword_prefix_of_append (fun c hc hin => ?_) hprefix)
  have hends := hrest c hc
  rw [endsName_eq_false_of_mem_keyword hkeyword hin] at hends
  exact Bool.false_ne_true hends

/-- A question mark behind a name goes with it. -/
lemma IsVariable.append_question (h : IsVariable sigil name) :
    IsVariable sigil (name ++ ['?']) := by
  have hmark : ∀ keyword ∈ keywords, '?' ∉ keyword := by decide
  refine ⟨h.mem_sigils, fun c hc => ?_, fun keyword hkeyword hprefix => ?_⟩
  · rcases List.mem_append.1 hc with hc | hc
    · exact h.unended c hc
    · obtain rfl := List.mem_singleton.1 hc
      decide
  · have hrest : ∀ c ∈ ['?'].head?, c ∉ keyword := by
      rintro c hc
      obtain rfl : '?' = c := by simpa using hc
      exact hmark keyword hkeyword
    exact h.not_keyword keyword hkeyword (keyword_prefix_of_append hrest hprefix)

lemma nameAndValue_append (hword : ∀ c ∈ sigil :: name, endsName c = false)
    (hrest : ∀ c ∈ rest.head?, endsName c = true) :
    nameAndValue (sigil :: name ++ rest) = (name, dropOperator (Text.trim rest)) := by
  obtain ⟨htaken, hleft⟩ := takeWhile_dropWhile_append hword hrest
  simp only [nameAndValue, htaken, hleft]
  rfl

/-- A variable directive is a definition if there is a value, and otherwise a reference, which is
optional if the name ends with a question mark. -/
lemma ofContent_variable (h : IsVariable sigil name)
    (hrest : ∀ c ∈ rest.head?, endsName c = true) :
    ofContent (sigil :: name ++ rest)
      = if dropOperator (Text.trim rest) ≠ [] then
          .definition name (dropOperator (Text.trim rest))
        else if name.getLast? = some '?' then .reference name.dropLast true
        else .reference name false := by
  have hkeywords := h.not_keyword_append hrest
  have hcompile := hkeywords compilationKeyword List.mem_cons_self
  have hinclude : (inclusionKeywords.any fun keyword =>
      keyword.isPrefixOf (sigil :: name ++ rest)) = false := by
    rw [List.any_eq_false]
    intro keyword hkeyword
    rw [hkeywords keyword (List.mem_cons_of_mem _ hkeyword)]
    exact Bool.false_ne_true
  simp only [ofContent, hinclude, hcompile, nameAndValue_append h.endsName_eq_false hrest,
    Bool.false_eq_true, if_false]

/-! ### The value -/

/-- What can stand between a name and a value that is given to it. -/
inductive IsAssignment (value : Text) : Text → Prop where
  /-- Blanks, if the value does not begin with an operator. -/
  | blanks {op : Text} (ne_nil : op ≠ []) (blank : Text.allBlank op = true)
      (first : ∀ c ∈ value.head?, isOperator c = false) : IsAssignment value op
  /-- An operator with blanks around it. -/
  | operator (before after : Text) (c : Char) (blank_before : Text.allBlank before = true)
      (operator : isOperator c = true) (blank_after : Text.allBlank after = true) :
      IsAssignment value (before ++ c :: after)

/-- The name is over where the value is given to it. -/
lemma IsAssignment.endsName (h : IsAssignment value op) :
    ∀ c ∈ (op ++ value).head?, endsName c = true := by
  have hblank : ∀ {s : Text}, Text.allBlank s = true → ∀ c ∈ s.head?, Directive.endsName c = true := by
    intro s hs c hc
    rw [Directive.endsName, List.all_eq_true.1 hs c (List.mem_of_mem_head? hc), Bool.true_or]
  cases h with
  | blanks hne hop hfirst =>
    rw [List.head?_append_of_ne_nil _ hne]
    exact hblank hop
  | operator before after c hbefore hc hafter =>
    cases before with
    | nil =>
      rintro x hx
      obtain rfl : c = x := by simpa using hx
      rw [Directive.endsName, hc, Bool.or_true]
    | cons b before =>
      intro x hx
      exact hblank hbefore x (by simpa using hx)

lemma isBlank_eq_false_of_isOperator {c : Char} (h : isOperator c = true) : isBlank c = false := by
  simp only [isOperator, Bool.or_eq_true, decide_eq_true_eq] at h
  rcases h with rfl | rfl <;> decide

/-- What has been given to a name is read as its value. -/
lemma IsAssignment.dropOperator_eq (h : IsAssignment value op) (hne : value ≠ [])
    (htrim : Text.trim value = value) : dropOperator (Text.trim (op ++ value)) = value := by
  have hvalue := Text.trim_eq_self_iff.1 htrim
  cases h with
  | blanks _ hop hfirst =>
    rw [Text.trim_blanks_append hop, htrim]
    obtain ⟨c, more, rfl⟩ := List.exists_cons_of_ne_nil hne
    rw [dropOperator, hfirst c rfl, if_neg Bool.false_ne_true]
  | operator before after c hbefore hc hafter =>
    have hwhole : Text.IsTrimmed ((c :: after) ++ value) := by
      refine Text.isTrimmed_append ?_ (by simp) hne hvalue.last
      intro x hx
      obtain rfl : c = x := by simpa using hx
      exact isBlank_eq_false_of_isOperator hc
    rw [List.append_assoc, Text.trim_blanks_append hbefore, Text.trim_eq_self_iff.2 hwhole,
      List.cons_append, dropOperator, if_pos hc, Text.trim_blanks_append hafter, htrim]

/-- A variable that is given a value is defined with it. -/
lemma ofContent_assignment (h : IsVariable sigil name) (hop : IsAssignment value op)
    (hne : value ≠ []) (htrim : Text.trim value = value) :
    ofContent (sigil :: name ++ (op ++ value)) = .definition name value := by
  rw [ofContent_variable h hop.endsName, hop.dropOperator_eq hne htrim, if_pos hne]

-- behind blanks alone, an operator that a value begins with is lost
example : ofContent "@x =5".toList = .definition "x".toList "5".toList := by decide

/-- A name without a value is a reference. -/
lemma ofContent_name (h : IsVariable sigil name) :
    ofContent (sigil :: name) = if name.getLast? = some '?' then .reference name.dropLast true
      else .reference name false := by
  have hrest : ∀ c ∈ ([] : Text).head?, endsName c = true := by simp
  have hread := ofContent_variable h hrest
  rw [List.append_nil] at hread
  rw [hread, if_neg]
  simp [Text.trim, Text.trimLeft, Text.trimRight, dropOperator]

end Directive

end CommentMarkup
