/-
# What variables can change

The value of a variable is only ever copied to the text, by a reference to its name.  It is not
scanned again, and no spec, no path and no diagnostic is made of it.  So the values have no
influence on whether a compilation succeeds, on how it fails, and on what it asks of the store:
this depends on nothing but which names are defined, and more names can only mend references
to undefined variables (`document_of_more_names`).  And a variable to which neither the document
nor any file of the store refers has no influence at all (`document_of_unreferenced`).  Nor has
the order in which the variables are kept (`document_of_agree`).

All this is seen by following two compilations side by side, which begin with different variables.
-/
import CommentMarkup.Proofs.Lockstep

namespace CommentMarkup

/-! ### Variables that belong together -/

namespace Scope

/-- All names of a scope are defined in another one. -/
def NamesIn (s s' : Scope) : Prop := ∀ name, s.defines name = true → s'.defines name = true

/-- Two scopes agree on all names but one. -/
def AgreeExcept (name : Text) (s s' : Scope) : Prop := ∀ n, n ≠ name → s'.find? n = s.find? n

/-- Two scopes give every name the same value, in whatever order the names stand. -/
def Agree (s s' : Scope) : Prop := ∀ name, s'.find? name = s.find? name

variable {s s' : Scope} {name : Text}

lemma defines_define (s : Scope) (nilSentinel name value n : Text) :
    (s.define nilSentinel name value).defines n = (decide (n = name) || s.defines n) := by
  rw [defines, define, find?_put]
  by_cases h : n = name <;> simp [h, defines]

lemma NamesIn.define (h : s.NamesIn s') (nilSentinel name value : Text) :
    (s.define nilSentinel name value).NamesIn (s'.define nilSentinel name value) := by
  intro n hn
  rw [defines_define, Bool.or_eq_true] at hn ⊢
  exact hn.imp_right (h n)

lemma AgreeExcept.define (h : AgreeExcept name s s') (nilSentinel n value : Text) :
    AgreeExcept name (s.define nilSentinel n value) (s'.define nilSentinel n value) := by
  intro m hm
  rw [Scope.define, Scope.define, find?_put, find?_put, h m hm]

lemma AgreeExcept.refer_eq (h : AgreeExcept name s s') {n : Text} (hn : n ≠ name)
    (optional : Bool) : s'.refer n optional = s.refer n optional := by
  simp only [refer, resolve, h n hn]

lemma defines_iff_mem : s.defines name = true ↔ name ∈ s.entries.map Prod.fst := by
  rw [defines, find?, List.lookup_isSome_iff, List.mem_map]
  refine exists_congr fun e => and_congr_right fun _ => ?_
  rw [beq_iff_eq, eq_comm]

lemma exists_find?_of_defines (h : s.defines name = true) : ∃ value, s.find? name = some value :=
  Option.isSome_iff_exists.1 h

lemma find?_eq_none_of_not_defines (h : ¬ s.defines name = true) : s.find? name = none := by
  rwa [defines, Bool.not_eq_true, Option.isSome_eq_false_iff, Option.isNone_iff_eq_none] at h

lemma Agree.define (h : s.Agree s') (nilSentinel name value : Text) :
    (s.define nilSentinel name value).Agree (s'.define nilSentinel name value) := by
  intro n
  rw [Scope.define, Scope.define, find?_put, find?_put, h n]

lemma Agree.refer_eq (h : s.Agree s') (name : Text) (optional : Bool) :
    s'.refer name optional = s.refer name optional := by
  simp only [refer, resolve, h name]

end Scope

/-- A reference to an undefined variable, from however far inside. -/
def Failure.IsUndefined (f : Failure) : Prop :=
  ∃ (diagnostic : Diagnostic) (name : Text), f = .diagnosed diagnostic ∧
    diagnostic.report.problem = .undefinedVariable name

lemma Failure.IsUndefined.leaving {f : Failure} (h : f.IsUndefined) (site : Site) :
    (f.leaving site).IsUndefined := by
  obtain ⟨diagnostic, name, rfl, hproblem⟩ := h
  obtain ⟨left, hleft, -, hsame⟩ := Compile.leaving_diagnosed diagnostic site
  exact ⟨left, name, hleft, hsame.trans hproblem⟩

/-- What a memory store reads is one of its files. -/
lemma MemoryStore.mem_files_of_read {m : MemoryStore} {path : Path} {bytes : Bytes}
    (h : m.read path = .ok bytes) : (path, bytes) ∈ m.files := by
  unfold read at h
  split at h
  · simp at h
  · split at h
    · next hlookup =>
      obtain ⟨before, after, hfiles, -⟩ := List.lookup_eq_some_iff.1 hlookup
      rw [hfiles, ← Except.ok.inj h]
      simp
    · simp at h

/-- Whether a block is a reference to a variable. -/
def Block.refersTo (name : Text) (b : Block) : Bool :=
  b.isSpecial && match b.directive with
    | .reference n _ => decide (n = name)
    | _ => false

/-- No block of a text is a reference to a variable. -/
def Text.Unreferenced (name text : Text) : Prop :=
  ∀ bs, Block.scan text = .ok bs → ∀ b ∈ bs, b.refersTo name = false

lemma Text.unreferenced_of_scan {name text : Text} {bs : List Block}
    (hscan : Block.scan text = .ok bs) (h : ∀ b ∈ bs, b.refersTo name = false) :
    Unreferenced name text := by
  intro bs' hscan'
  obtain rfl := Except.ok.inj (hscan.symm.trans hscan')
  exact h

lemma Text.Unreferenced.ne {name text : Text} (h : Unreferenced name text) {bs : List Block}
    {b : Block} {n : Text} {optional : Bool} (hscan : Block.scan text = .ok bs) (hb : b ∈ bs)
    (hspecial : b.isSpecial = true) (hdirective : b.directive = .reference n optional) :
    n ≠ name := by
  have hnot := h bs hscan b hb
  simpa [Block.refersTo, hspecial, hdirective] using hnot

namespace Compile

variable {ctx : Context} {d : Document} {scope scope' : Scope}

/-! ### Names -/

/-- Compilations of one document of which the second one begins with all names of the first.
They stay in step until a name is missing in the first one; if both begin with the same names,
they stay in step to the end. -/
def Pairing.ofNames (ctx : Context) (same : Prop) : Pairing ctx ctx.cwd where
  documents d d' := d' = d
  scopes s s' := s.NamesIn s' ∧ (same → s'.NamesIn s)
  texts _ _ := True
  spared f := ¬ same ∧ f.IsUndefined
  text_eq hd := hd ▸ rfl
  file_eq hd := hd ▸ rfl
  resolve hd spec := hd ▸ .refl _ _
  relative hd _ := hd ▸ rfl
  child hd _ _ _ := hd ▸ rfl
  define hs name value := ⟨hs.1.define _ name value, fun h => (hs.2 h).define _ name value⟩
  refer {d d' s s' bs b name optional} _ hs _ _ _ _ := by
    by_cases hname : s'.defines name = true
    · obtain ⟨value', hvalue'⟩ := Scope.exists_find?_of_defines hname
      rw [Scope.refer_of_some hvalue']
      by_cases hdefined : s.defines name = true
      · obtain ⟨value, hvalue⟩ := Scope.exists_find?_of_defines hdefined
        rw [Scope.refer_of_some hvalue]
        exact Run.inStep_pure trivial
      · -- only the second compilation has the name
        rw [Scope.refer_of_none (Scope.find?_eq_none_of_not_defines hdefined)]
        cases optional with
        | true => exact Run.inStep_pure trivial
        | false => exact Or.inr ⟨_, rfl, fun h => hdefined (hs.2 h name hname), _, _, rfl, rfl⟩
    · have hdefined : ¬ s.defines name = true := fun h => hname (hs.1 name h)
      rw [Scope.refer_of_none (Scope.find?_eq_none_of_not_defines hname),
        Scope.refer_of_none (Scope.find?_eq_none_of_not_defines hdefined)]
      cases optional with
      | true => exact Run.inStep_pure trivial
      | false => exact Run.inStep_fail _
  texts_refl _ := trivial
  texts_append _ _ := trivial
  spared_leaving hf site := ⟨hf.1, hf.2.leaving site⟩

/-- Which names are defined is all that a compilation takes from its variables, besides the
texts that it leaves.

A compilation that succeeds also does with more names, and makes the same events.  One that
fails ends in the same way with more names, unless it has come to a reference to an undefined
variable.  With the same names, two compilations both succeed, or both fail alike, and make the
same events, whatever the values are. -/
theorem document_of_more_names (ctx : Context) (d : Document) (scope scope' : Scope)
    (hnames : ∀ name, scope.defines name = true → scope'.defines name = true) :
    (∀ text, (document ctx d scope).outcome = .ok text →
      ∃ text', (document ctx d scope').outcome = .ok text' ∧
        (document ctx d scope').events = (document ctx d scope).events) ∧
      (∀ f, (document ctx d scope).outcome = .error f →
        f.IsUndefined ∨ (document ctx d scope').outcome = .error f ∧
          (document ctx d scope').events = (document ctx d scope).events) ∧
      ((∀ name, scope'.defines name = true → scope.defines name = true) →
        (document ctx d scope').events = (document ctx d scope).events ∧
          ((∃ text text', (document ctx d scope).outcome = .ok text ∧
              (document ctx d scope').outcome = .ok text') ∨
            ∃ f, (document ctx d scope).outcome = .error f ∧
              (document ctx d scope').outcome = .error f)) := by
  have hmore := (Pairing.ofNames ctx False).within_inStep (depthBound ctx.store + 1)
    (rfl : d = d) ⟨hnames, False.elim⟩
  refine ⟨fun text h => ?_, fun f h => ?_, fun hsame => ?_⟩
  · rcases hmore with ⟨houtcome, -, hevents⟩ | ⟨f, hf, -⟩
    · rw [document] at h
      rw [h] at houtcome
      obtain ⟨text', htext', -⟩ := houtcome.of_ok
      exact ⟨text', htext', hevents.symm⟩
    · rw [document, hf] at h
      simp at h
  · rcases hmore with ⟨houtcome, -, hevents⟩ | ⟨f', hf', -, hundefined⟩
    · rw [document] at h
      rw [h] at houtcome
      exact Or.inr ⟨houtcome.of_error, hevents.symm⟩
    · rw [document, hf'] at h
      exact Or.inl (Except.error.inj h ▸ hundefined)
  · obtain ⟨houtcome, -, hevents⟩ := ((Pairing.ofNames ctx True).within_inStep
      (depthBound ctx.store + 1) (rfl : d = d) ⟨hnames, fun _ => hsame⟩).of_not_spared
        fun f hf => hf.1 trivial
    refine ⟨hevents.symm, ?_⟩
    cases h : (document ctx d scope).outcome with
    | ok text =>
      rw [document] at h
      rw [h] at houtcome
      obtain ⟨text', htext', -⟩ := houtcome.of_ok
      exact Or.inl ⟨text, text', rfl, htext'⟩
    | error f =>
      rw [document] at h
      rw [h] at houtcome
      exact Or.inr ⟨f, rfl, houtcome.of_error⟩

/-- Two calls of a document that includes a template, with other values and one more name: a
compilation that succeeds, and one that fails behind the include. -/
theorem document_of_more_names_of_include :
    let m : MemoryStore :=
      ⟨[("/site/b.kit".toList, Encoding.utf8Bytes "<!--$a--> <!--$c?-->".toList)], []⟩
    let ctx : Context := ⟨m.toStore, {}, "/site".toList, Codec.builtIn⟩
    let d (text : Text) : Document :=
      { text := text, file := "/site/a.kit".toList, rootDir := "/site".toList, parents := [] }
    let good := d "<!--$x=1--><!--@include b-->".toList
    let bad := d "<!--@include b-->\n<!--$d-->".toList
    let few : Scope := ⟨[("a".toList, "1".toList)]⟩
    let more : Scope := ⟨[("c".toList, "3".toList), ("a".toList, "2".toList)]⟩
    let other : Scope := ⟨[("a".toList, "9".toList)]⟩
    let undefined : Failure := .diagnosed (.root
      { problem := .undefinedVariable "d".toList, file := some "/site/a.kit".toList
        line := some 2, column := some 1, trace := [] } none)
    (document ctx good few).outcome = .ok "1 ".toList ∧
      (∃ text, (document ctx good more).outcome = .ok text ∧
        (document ctx good more).events = (document ctx good few).events) ∧
      (document ctx bad few).outcome = .error undefined ∧
      (document ctx bad other).outcome = .error undefined ∧
      (document ctx bad other).events = (document ctx bad few).events := by
  intro m ctx d good bad few more other undefined
  have hmore : ∀ name, few.defines name = true → more.defines name = true := by
    simp only [Scope.defines_iff_mem]
    decide
  have hother : ∀ name, few.defines name = true ↔ other.defines name = true := by
    simp only [Scope.defines_iff_mem]
    exact fun _ => Iff.rfl
  have hgood : (document ctx good few).outcome = .ok "1 ".toList := by decide +kernel
  have hbad : (document ctx bad few).outcome = .error undefined := by decide +kernel
  obtain ⟨hsucceeds, -, -⟩ := document_of_more_names ctx good few more hmore
  obtain ⟨-, -, hsame⟩ := document_of_more_names ctx bad few other fun name => (hother name).1
  obtain ⟨hevents, houtcome⟩ := hsame fun name => (hother name).2
  refine ⟨hgood, hsucceeds _ hgood, hbad, ?_, hevents⟩
  rcases houtcome with ⟨text, -, htext, -⟩ | ⟨f, hf, hf'⟩
  · simp [hbad] at htext
  · rw [hf', ← hf, hbad]

/-! ### Variables that are not referred to -/

/-- Compilations of one document whose variables agree on all names but one, if neither the
document nor any file of the store refers to that name. -/
def Pairing.ofUnreferenced (ctx : Context) (name : Text)
    (hstore : ∀ path bytes text, ctx.store.contains path = .ok true →
      ctx.store.read path = .ok bytes → (decode ctx bytes).outcome = .ok text →
        Text.Unreferenced name text) : Pairing ctx ctx.cwd where
  documents d d' := d' = d ∧ Text.Unreferenced name d.text
  scopes := Scope.AgreeExcept name
  texts := Eq
  spared _ := False
  text_eq hd := hd.1 ▸ rfl
  file_eq hd := hd.1 ▸ rfl
  resolve hd spec := hd.1 ▸ .refl _ _
  relative hd _ := hd.1 ▸ rfl
  child {d d' spec text path bytes} hd hpath hbytes htext := by
    obtain ⟨_, hstop, -⟩ := Include.resolve_eq_ok_iff.1 hpath
    exact ⟨hd.1 ▸ rfl, hstore path bytes text hstop.answered hbytes htext⟩
  define hs n value := hs.define _ n value
  refer {d d' s s' bs b n optional} hd hs hscan hb hspecial hdirective := by
    rw [hs.refer_eq (hd.2.ne hscan hb hspecial hdirective)]
    exact .refl _ _
  texts_refl _ := rfl
  texts_append := Text.append_congr
  spared_leaving hf _ := hf

/-- A variable to which neither the document nor any file of the store refers has no influence
on a compilation: it can have any value or none, and the outcome and all events are the
same. -/
theorem document_of_unreferenced (ctx : Context) (d : Document) (name : Text)
    (htext : Text.Unreferenced name d.text)
    (hstore : ∀ path bytes text, ctx.store.contains path = .ok true →
      ctx.store.read path = .ok bytes → (decode ctx bytes).outcome = .ok text →
        Text.Unreferenced name text)
    (scope scope' : Scope) (hagree : ∀ n, n ≠ name → scope'.find? n = scope.find? n) :
    (document ctx d scope').outcome = (document ctx d scope).outcome ∧
      (document ctx d scope').events = (document ctx d scope).events := by
  obtain ⟨houtcome, -, hevents⟩ := ((Pairing.ofUnreferenced ctx name hstore).within_inStep
    (depthBound ctx.store + 1) ⟨rfl, htext⟩ hagree).of_not_spared fun _ => id
  exact ⟨(sameOutcome_eq_iff.1 houtcome).symm, hevents.symm⟩

/-- A variable that an included template defines and nothing refers to. -/
theorem document_of_unreferenced_of_definition :
    let m : MemoryStore :=
      ⟨[("/site/b.kit".toList, Encoding.utf8Bytes "<!--$n=2-->b <!--$x-->".toList)], []⟩
    let ctx : Context := ⟨m.toStore, {}, "/site".toList, Codec.builtIn⟩
    let d : Document :=
      { text := "<!--@include b--> <!--$n1?-->".toList, file := "/site/a.kit".toList
        rootDir := "/site".toList, parents := [] }
    let scope : Scope := ⟨[("x".toList, "1".toList)]⟩
    let scope' : Scope := ⟨[("n".toList, "5".toList), ("x".toList, "1".toList)]⟩
    Text.Unreferenced "n".toList d.text ∧
      (document ctx d scope).outcome = .ok "b 1 ".toList ∧
      (document ctx d scope').outcome = (document ctx d scope).outcome ∧
      (document ctx d scope').events = (document ctx d scope).events := by
  intro m ctx d scope scope'
  have hscan : Block.scan d.text = .ok [⟨0, "<!--@include b-->".toList⟩, ⟨17, " ".toList⟩,
      ⟨18, "<!--$n1?-->".toList⟩] := by decide +kernel
  have htext : Text.Unreferenced "n".toList d.text :=
    Text.unreferenced_of_scan hscan (by decide)
  have hstore : ∀ path bytes text, ctx.store.contains path = .ok true →
      ctx.store.read path = .ok bytes → (decode ctx bytes).outcome = .ok text →
        Text.Unreferenced "n".toList text := by
    intro path bytes text _ hbytes htext
    have hfile : (path, bytes) ∈ m.files := MemoryStore.mem_files_of_read hbytes
    obtain ⟨-, rfl⟩ := Prod.mk.inj (List.mem_singleton.1 hfile)
    have hdecode : (decode ctx
        (Encoding.utf8Bytes "<!--$n=2-->b <!--$x-->".toList)).outcome
          = .ok "<!--$n=2-->b <!--$x-->".toList := by decide +kernel
    have hblocks : Block.scan "<!--$n=2-->b <!--$x-->".toList
        = .ok [⟨0, "<!--$n=2-->".toList⟩, ⟨11, "b ".toList⟩, ⟨13, "<!--$x-->".toList⟩] := by
      decide +kernel
    rw [← Except.ok.inj (hdecode.symm.trans htext)]
    exact Text.unreferenced_of_scan hblocks (by decide)
  have hagree : ∀ n, n ≠ "n".toList → scope'.find? n = scope.find? n := by
    intro n hn
    simp only [scope, scope', Scope.find?, List.lookup_cons, beq_eq_false_iff_ne.2 hn]
  obtain ⟨houtcome, hevents⟩ :=
    document_of_unreferenced ctx d "n".toList htext hstore scope scope' hagree
  exact ⟨htext, by decide +kernel, houtcome, hevents⟩

/-! ### Variables in another order -/

/-- Compilations of one document with variables that agree. -/
def Pairing.ofAgree (ctx : Context) : Pairing ctx ctx.cwd where
  documents d d' := d' = d
  scopes := Scope.Agree
  texts := Eq
  spared _ := False
  text_eq hd := hd ▸ rfl
  file_eq hd := hd ▸ rfl
  resolve hd spec := hd ▸ .refl _ _
  relative hd _ := hd ▸ rfl
  child hd _ _ _ := hd ▸ rfl
  define hs name value := hs.define _ name value
  refer _ hs _ _ _ _ := by
    rw [hs.refer_eq]
    exact .refl _ _
  texts_refl _ := rfl
  texts_append := Text.append_congr
  spared_leaving hf _ := hf

/-- Nothing but the values of names is taken from the variables: those that agree give the same
outcome and the same events. -/
theorem document_of_agree (ctx : Context) (d : Document) (h : scope.Agree scope') :
    (document ctx d scope').outcome = (document ctx d scope).outcome ∧
      (document ctx d scope').events = (document ctx d scope).events := by
  obtain ⟨houtcome, -, hevents⟩ := ((Pairing.ofAgree ctx).within_inStep (depthBound ctx.store + 1)
    (rfl : d = d) h).of_not_spared fun _ => id
  exact ⟨(sameOutcome_eq_iff.1 houtcome).symm, hevents.symm⟩

end Compile

end CommentMarkup
