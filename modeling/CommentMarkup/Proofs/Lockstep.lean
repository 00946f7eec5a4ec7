/-
# Two compilations in step

What a compilation never looks at does not change it.  To say so, two compilations are followed
side by side.  They may begin with different variables, in different current directories, or
with documents that are not quite the same.  A `DocumentPairing` says which documents of the two
belong together, and a `Pairing` which variables and texts do as well.  They have to vouch for the
few places where such a difference could show: where a spec is resolved, where a template is
opened, and where a variable is defined or referred to.  Everything else follows from that: the
two compilations stay in step to the end (`Pairing.within_inStep`), and if they have the same
variables they are the same (`DocumentPairing.within_eq_or_spared`).

Being in step means to end in the same way, with the same events.  A pairing may spare some
failures of the first compilation; the second one is free to do better there.
-/
import CommentMarkup.Proofs.Nesting

namespace CommentMarkup

attribute [ext] Compilation

variable {α β γ δ : Type}

/-- Two outcomes are the same but for their results, which belong together. -/
def SameOutcome (related : α → β → Prop) : Except Failure α → Except Failure β → Prop
  | .ok a, .ok b => related a b
  | .error f, .error f' => f = f'
  | _, _ => False

lemma sameOutcome_eq_iff {x y : Except Failure α} : SameOutcome Eq x y ↔ x = y := by
  cases x <;> cases y <;> simp [SameOutcome]

lemma SameOutcome.of_ok {related : α → β → Prop} {a : α} {y : Except Failure β}
    (h : SameOutcome related (.ok a) y) : ∃ b, y = .ok b ∧ related a b := by
  cases y with
  | ok b => exact ⟨b, rfl, h⟩
  | error f => exact absurd h id

lemma SameOutcome.of_error {related : α → β → Prop} {f : Failure} {y : Except Failure β}
    (h : SameOutcome related (.error f) y) : y = .error f := by
  cases y with
  | ok b => exact absurd h id
  | error f' => exact congrArg Except.error (Eq.symm h)

/-! ### Runs in step -/

namespace Run

/-- Two runs end in the same way, with the same events, unless the first one ends with a failure
that is spared. -/
def InStep (related : α → β → Prop) (spared : Failure → Prop) (r : Run α) (r' : Run β) : Prop :=
  SameOutcome related r.outcome r'.outcome ∧ r.events = r'.events ∨
    ∃ f, r.outcome = .error f ∧ spared f

variable {related : α → β → Prop} {later : γ → δ → Prop} {spared : Failure → Prop}

lemma InStep.refl (spared : Failure → Prop) (r : Run α) : r.InStep Eq spared r :=
  Or.inl ⟨sameOutcome_eq_iff.2 rfl, rfl⟩

lemma inStep_pure {a : α} {b : β} (h : related a b) :
    (pure a : Run α).InStep related spared (pure b) :=
  Or.inl ⟨h, rfl⟩

lemma inStep_fail (f : Failure) : (fail f : Run α).InStep related spared (fail f : Run β) :=
  Or.inl ⟨rfl, rfl⟩

lemma InStep.bind {r : Run α} {r' : Run β} {f : α → Run γ} {g : β → Run δ}
    (h : r.InStep related spared r')
    (hfg : ∀ a b, r.outcome = .ok a → related a b → (f a).InStep later spared (g b)) :
    (r >>= f).InStep later spared (r' >>= g) := by
  rcases h with ⟨hsame, hevents⟩ | ⟨e, he, hspared⟩
  · cases hr : r.outcome with
    | error e =>
      -- both fail before the second step, and alike
      rw [hr] at hsame
      rw [bind_of_error hr, bind_of_error hsame.of_error, hevents]
      exact Or.inl ⟨rfl, rfl⟩
    | ok a =>
      rw [hr] at hsame
      obtain ⟨b, hb, hab⟩ := hsame.of_ok
      rw [bind_of_ok hr, bind_of_ok hb, hevents]
      rcases hfg a b hr hab with ⟨hnext, hmore⟩ | hspared
      · exact Or.inl ⟨hnext, congrArg _ hmore⟩
      · exact Or.inr hspared
  · exact Or.inr ⟨e, bind_eq_error_iff.2 (Or.inl he), hspared⟩

/-- After one and the same run, two steps are in step if they are for what it yields. -/
lemma InStep.bind_left (r : Run α) {f : α → Run γ} {g : α → Run δ}
    (hfg : ∀ a, r.outcome = .ok a → (f a).InStep later spared (g a)) :
    (r >>= f).InStep later spared (r >>= g) := by
  refine (InStep.refl spared r).bind fun a b ha hab => ?_
  rw [← hab]
  exact hfg a ha

lemma InStep.forEach {f : α → Run γ} {g : α → Run δ} {as : List α}
    (h : ∀ a ∈ as, (f a).InStep later spared (g a)) :
    (Run.forEach f as).InStep (List.Forall₂ later) spared (Run.forEach g as) := by
  induction as with
  | nil => exact inStep_pure .nil
  | cons a rest ih =>
    rw [forEach_cons, forEach_cons]
    refine (h a List.mem_cons_self).bind fun c c' _ hc => ?_
    refine (ih fun x hx => h x (List.mem_cons_of_mem _ hx)).bind fun cs cs' _ hcs => ?_
    exact inStep_pure (.cons hc hcs)

end Run

lemma Text.append_congr {t t' u u' : Text} (ht : t = t') (hu : u = u') : t ++ u = t' ++ u' := by
  rw [ht, hu]

/-- What a reference leaves. -/
def Scope.refer (s : Scope) (name : Text) (optional : Bool) : Run Text :=
  ⟨(s.resolve name optional).mapError .ofProblem, []⟩

lemma Scope.refer_of_some {s : Scope} {name value : Text} (h : s.find? name = some value)
    (optional : Bool) : s.refer name optional = .ok value := by
  simp only [refer, resolve, h]
  rfl

lemma Scope.refer_of_none {s : Scope} {name : Text} (h : s.find? name = none) (optional : Bool) :
    s.refer name optional
      = if optional then .ok [] else .fail (.ofProblem (.undefinedVariable name)) := by
  simp only [refer, resolve, h]
  cases optional <;> rfl

/-- The same, in another current directory. -/
abbrev Context.movedTo (ctx : Context) (cwd : Path) : Context := { ctx with cwd := cwd }

namespace Compile

lemma directive_reference {ctx : Context} {nested : Document → Scope → Run Text} {d : Document}
    (s : Scope) (name : Text) (optional : Bool) :
    directive ctx nested d s (.reference name optional) = .ofRun s (s.refer name optional) := by
  simp only [directive, Scope.refer]
  cases s.resolve name optional <;> rfl

/-- Which documents belong together in two compilations with the same store and settings, the
second one of them in a current directory of its own. -/
structure DocumentPairing (ctx : Context) (cwd : Path) where
  /-- The documents that belong together. -/
  documents : Document → Document → Prop
  /-- The failures of the first compilation with which the two need not stay in step. -/
  spared : Failure → Prop
  /-- Documents that belong together have the same text. -/
  text_eq {d d' : Document} (hd : documents d d') : d'.text = d.text
  /-- Documents that belong together come from the same file. -/
  file_eq {d d' : Document} (hd : documents d d') : d'.file = d.file
  /-- Specs are resolved in step. -/
  resolve {d d' : Document} (hd : documents d d') (spec : Text) :
    (Include.resolve ctx d spec).InStep Eq spared (Include.resolve (ctx.movedTo cwd) d' spec)
  /-- Files that are found are shown alike. -/
  relative {d d' : Document} {spec : Text} {path : Path} (hd : documents d d')
    (hpath : (Include.resolve ctx d spec).outcome = .ok path) :
    d'.relative cwd path = d.relative ctx.cwd path
  /-- Templates that are opened belong together. -/
  child {d d' : Document} {spec text : Text} {path : Path} {bytes : Bytes} (hd : documents d d')
    (hpath : (Include.resolve ctx d spec).outcome = .ok path)
    (hbytes : ctx.store.read path = .ok bytes)
    (htext : (decode ctx bytes).outcome = .ok text) :
    documents (child ctx d path text) (child (ctx.movedTo cwd) d' path text)
  /-- A failure that is spared still is when it leaves an include. -/
  spared_leaving {f : Failure} (hf : spared f) (site : Site) : spared (f.leaving site)

/-- What else belongs together in such compilations: their variables, and the texts that they
leave. -/
structure Pairing (ctx : Context) (cwd : Path) extends DocumentPairing ctx cwd where
  /-- The variables that belong together. -/
  scopes : Scope → Scope → Prop
  /-- The texts that belong together. -/
  texts : Text → Text → Prop
  /-- A definition keeps variables together. -/
  define {s s' : Scope} (hs : scopes s s') (name value : Text) :
    scopes (s.define ctx.settings.nilSentinel name value)
      (s'.define ctx.settings.nilSentinel name value)
  /-- The references of a document are in step. -/
  refer {d d' : Document} {s s' : Scope} {bs : List Block} {b : Block} {name : Text}
    {optional : Bool} (hd : documents d d') (hs : scopes s s')
    (hscan : Block.scan d.text = .ok bs) (hb : b ∈ bs) (hspecial : b.isSpecial = true)
    (hdirective : b.directive = .reference name optional) :
    (s.refer name optional).InStep texts spared (s'.refer name optional)
  /-- A text belongs to itself. -/
  texts_refl (t : Text) : texts t t
  /-- Texts that belong together can be put one behind the other. -/
  texts_append {t t' u u' : Text} (ht : texts t t') (hu : texts u u') : texts (t ++ u) (t' ++ u')

namespace Pairing

variable {ctx : Context} {cwd : Path} (p : Pairing ctx cwd)
  {nested nested' : Document → Scope → Run Text} {d d' : Document} {s s' : Scope} {b : Block}
  {c c' : Compilation} {bs : List Block}

/-- Two compilations end in the same way, with the same events and with variables that belong
together, unless the first one ends with a failure that is spared. -/
def InStep (c c' : Compilation) : Prop :=
  SameOutcome p.texts c.outcome c'.outcome ∧ p.scopes c.scope c'.scope ∧ c.events = c'.events ∨
    ∃ f, c.outcome = .error f ∧ p.spared f

variable {p}

/-- Where no failure is spared, being in step leaves nothing open. -/
lemma InStep.of_not_spared (h : p.InStep c c') (hspared : ∀ f, ¬ p.spared f) :
    SameOutcome p.texts c.outcome c'.outcome ∧ p.scopes c.scope c'.scope ∧
      c.events = c'.events :=
  h.resolve_right fun ⟨f, _, hf⟩ => hspared f hf

lemma InStep.toRun (h : p.InStep c c') : c.toRun.InStep p.texts p.spared c'.toRun :=
  h.imp_left fun ⟨houtcome, _, hevents⟩ => ⟨houtcome, hevents⟩

lemma inStep_ofRun {r r' : Run Text} (h : r.InStep p.texts p.spared r') (hs : p.scopes s s') :
    p.InStep (.ofRun s r) (.ofRun s' r') :=
  h.imp_left fun ⟨houtcome, hevents⟩ => ⟨houtcome, hs, hevents⟩

lemma InStep.goOn {t t' : Text} (ht : p.texts t t') (events : List Event) (h : p.InStep c c') :
    p.InStep (goOn t events c) (goOn t' events c') := by
  rcases h with ⟨houtcome, hscope, hevents⟩ | ⟨f, hf, hspared⟩
  · refine Or.inl ⟨?_, hscope, congrArg (events ++ ·) hevents⟩
    cases hc : c.outcome with
    | error f =>
      rw [hc] at houtcome
      simp only [Compile.goOn, hc, houtcome.of_error]
      rfl
    | ok u =>
      rw [hc] at houtcome
      obtain ⟨u', hc', hu⟩ := houtcome.of_ok
      simp only [Compile.goOn, hc, hc']
      exact p.texts_append ht hu
  · exact Or.inr ⟨f, goOn_eq_error_iff.2 hf, hspared⟩

lemma texts_intercalate {ts ts' : List Text} (h : List.Forall₂ p.texts ts ts') :
    p.texts (List.intercalate ['\n'] ts) (List.intercalate ['\n'] ts') := by
  induction h with
  | nil => exact p.texts_refl _
  | @cons t t' rest rest' ht hrest ih =>
    cases hrest with
    | nil => simpa using ht
    | cons hnext hmore =>
      rw [List.intercalate_cons_cons, List.intercalate_cons_cons]
      exact p.texts_append (p.texts_append ht (p.texts_refl _)) ih

lemma siteOf_eq (hd : p.documents d d') (offset : Nat) : siteOf d' offset = siteOf d offset := by
  simp only [siteOf, p.text_eq hd, p.file_eq hd]

/-! ### One level

If the documents that are opened are compiled in step, then so are those that open them. -/

section Step

variable (hnested : ∀ (d d' : Document) (s s' : Scope), p.documents d d' → p.scopes s s' →
    (nested d s).InStep p.texts p.spared (nested' d' s'))
  (hd : p.documents d d') (hs : p.scopes s s')

include hnested hd hs

lemma load_inStep {spec : Text} {path : Path} (base64 : Bool)
    (hpath : (Include.resolve ctx d spec).outcome = .ok path) :
    (load ctx nested d s base64 path).InStep p.texts p.spared
      (load (ctx.movedTo cwd) nested' d' s' base64 path) := by
  refine .bind_left (readFile ctx.store path) fun bytes hbytes => ?_
  cases base64 with
  | true =>
    simp only [if_true]
    exact Run.inStep_pure (p.texts_refl _)
  | false =>
    simp only [Bool.false_eq_true, if_false]
    refine .bind_left (decode ctx bytes) fun text htext => ?_
    cases htemplate : ctx.settings.isTemplate path with
    | false =>
      simp only [Bool.false_eq_true, if_false]
      exact Run.inStep_pure (p.texts_refl _)
    | true =>
      simp only [if_true]
      rw [p.relative hd hpath]
      exact .bind_left _ fun _ _ =>
        hnested _ _ s s' (p.child hd hpath (readFile_eq_ok_iff.1 hbytes) htext) hs

lemma inclusion_inStep (specs : List Text) (base64 : Bool) :
    (inclusion ctx nested d s specs base64).InStep p.texts p.spared
      (inclusion (ctx.movedTo cwd) nested' d' s' specs base64) := by
  unfold inclusion
  cases hspecs : (specs.isEmpty || specs.any List.isEmpty) with
  | true =>
    simp only [if_true]
    exact Run.inStep_fail _
  | false =>
    simp only [Bool.false_eq_true, if_false]
    have hresolve : (Run.forEach (Include.resolve ctx d) specs).InStep (List.Forall₂ Eq) p.spared
        (Run.forEach (Include.resolve (ctx.movedTo cwd) d') specs) :=
      Run.InStep.forEach fun spec _ => p.resolve hd spec
    refine hresolve.bind fun paths paths' hpaths hsame => ?_
    obtain rfl : paths = paths' := List.forall₂_eq_eq_eq ▸ hsame
    refine (Run.InStep.forEach fun path hpath => ?_).bind fun texts texts' _ htexts =>
      Run.inStep_pure (texts_intercalate htexts)
    obtain ⟨spec, -, hspec⟩ := Run.exists_of_mem_forEach hpaths hpath
    exact load_inStep hnested hd hs base64 hspec

lemma directive_inStep (hscan : Block.scan d.text = .ok bs) (hb : b ∈ bs)
    (hspecial : b.isSpecial = true) :
    p.InStep (directive ctx nested d s b.directive)
      (directive (ctx.movedTo cwd) nested' d' s' b.directive) := by
  cases hdirective : b.directive with
  | inclusion specs base64 => exact inStep_ofRun (inclusion_inStep hnested hd hs specs base64) hs
  | compilation => exact Or.inl ⟨rfl, hs, rfl⟩
  | definition name value => exact Or.inl ⟨p.texts_refl _, p.define hs name value, rfl⟩
  | reference name optional =>
    rw [directive_reference, directive_reference]
    exact inStep_ofRun (p.refer hd hs hscan hb hspecial hdirective) hs

lemma block_inStep (hscan : Block.scan d.text = .ok bs) (hb : b ∈ bs) :
    p.InStep (block ctx nested d s b) (block (ctx.movedTo cwd) nested' d' s' b) := by
  cases hspecial : b.isSpecial with
  | false =>
    rw [block_of_not_isSpecial hspecial, block_of_not_isSpecial hspecial]
    exact Or.inl ⟨p.texts_refl _, hs, rfl⟩
  | true =>
    rw [block_of_isSpecial hspecial, block_of_isSpecial hspecial, siteOf_eq hd]
    rcases directive_inStep hnested hd hs hscan hb hspecial with
      ⟨houtcome, hscope, hevents⟩ | ⟨f, hf, hspared⟩
    · refine Or.inl ⟨?_, hscope, congrArg (List.cons _) hevents⟩
      rw [execute_outcome, execute_outcome]
      cases hc : (directive ctx nested d s b.directive).outcome with
      | error f =>
        rw [hc] at houtcome
        rw [houtcome.of_error]
        rfl
      | ok t =>
        rw [hc] at houtcome
        obtain ⟨t', ht', htexts⟩ := houtcome.of_ok
        rw [ht']
        exact htexts
    · refine Or.inr ⟨_, ?_, p.spared_leaving hspared (siteOf d b.start)⟩
      rw [execute_outcome, hf]
      rfl

omit hs in
lemma blocks_inStep (hscan : Block.scan d.text = .ok bs) {rest : List Block} (hrest : rest ⊆ bs)
    (previous : Option Block) (hs : p.scopes s s') :
    p.InStep ((Cursor.mk previous rest s).compile ctx nested d)
      ((Cursor.mk previous rest s').compile (ctx.movedTo cwd) nested' d') := by
  induction rest generalizing previous s s' with
  | nil => exact Or.inl ⟨p.texts_refl _, hs, rfl⟩
  | cons b rest ih =>
    obtain ⟨hb, hrest⟩ := List.cons_subset.1 hrest
    cases hc : collapses previous b rest.head? with
    | true =>
      rw [compile_skip hc, compile_skip hc]
      exact ih hrest _ hs
    | false =>
      rcases block_inStep hnested hd hs hscan hb with
        ⟨houtcome, hscope, hevents⟩ | ⟨f, hf, hspared⟩
      · cases hleft : (block ctx nested d s b).outcome with
        | error f =>
          rw [compile_stop hc hleft]
          rw [hleft] at houtcome
          rw [compile_stop hc houtcome.of_error]
          exact Or.inl ⟨by rw [hleft, houtcome.of_error]; rfl, hscope, hevents⟩
        | ok t =>
          rw [hleft] at houtcome
          obtain ⟨t', hleft', ht⟩ := houtcome.of_ok
          rw [compile_keep hc hleft, compile_keep hc hleft', hevents]
          exact (ih hrest _ hscope).goOn ht _
      · rw [compile_stop hc hf]
        exact Or.inr ⟨f, hf, hspared⟩

lemma documentWith_inStep :
    p.InStep (documentWith ctx nested d s) (documentWith (ctx.movedTo cwd) nested' d' s') := by
  cases hscan : Block.scan d.text with
  | error offset =>
    have hscan' : Block.scan d'.text = .error offset := by rw [p.text_eq hd, hscan]
    rw [documentWith_of_scan_error hscan, documentWith_of_scan_error hscan', unterminated,
      unterminated, siteOf_eq hd]
    exact Or.inl ⟨rfl, hs, rfl⟩
  | ok bs =>
    have hscan' : Block.scan d'.text = .ok bs := by rw [p.text_eq hd, hscan]
    have hbody := blocks_inStep hnested hd hscan (List.Subset.refl bs) none hs
    simp only [Cursor.compile] at hbody
    simp only [documentWith, hscan, hscan', p.file_eq hd]
    rcases hbody with ⟨houtcome, hscope, hevents⟩ | hspared
    · -- both note at the end that they are done, or neither does
      refine Or.inl ⟨houtcome, hscope, ?_⟩
      rw [hevents]
      cases hc : (blocks ctx nested d none bs s).outcome with
      | error f =>
        rw [hc] at houtcome
        rw [houtcome.of_error]
      | ok t =>
        rw [hc] at houtcome
        obtain ⟨t', ht', -⟩ := houtcome.of_ok
        rw [ht']
    · exact Or.inr hspared

end Step

/-! ### All levels -/

/-- Documents that belong together are compiled in step, to whatever depth they include
others. -/
theorem within_inStep (p : Pairing ctx cwd) (depth : Nat) (hd : p.documents d d')
    (hs : p.scopes s s') :
    p.InStep (within ctx depth d s) (within (ctx.movedTo cwd) depth d' s') := by
  induction depth generalizing d d' s s' with
  | zero => exact Or.inl ⟨rfl, hs, rfl⟩
  | succ depth ih =>
    have hnested : ∀ (d d' : Document) (s s' : Scope), p.documents d d' → p.scopes s s' →
        (nestedWithin ctx depth d s).InStep p.texts p.spared
          (nestedWithin (ctx.movedTo cwd) depth d' s') :=
      fun d d' s s' hd hs => (ih hd hs).toRun
    exact documentWith_inStep hnested hd hs

end Pairing

namespace DocumentPairing

variable {ctx : Context} {cwd : Path} (p : DocumentPairing ctx cwd) {d d' : Document}

/-- Documents that belong together, with the same variables. -/
def withSameVariables : Pairing ctx cwd where
  toDocumentPairing := p
  scopes := Eq
  texts := Eq
  define hs _ _ := hs ▸ rfl
  refer _ hs _ _ _ _ := hs ▸ .refl _ _
  texts_refl _ := rfl
  texts_append := Text.append_congr

/-- With the same variables, documents that belong together are compiled to the same, unless
the first compilation ends with a failure that is spared. -/
theorem within_eq_or_spared (depth : Nat) (hd : p.documents d d') (scope : Scope) :
    within ctx depth d scope = within (ctx.movedTo cwd) depth d' scope ∨
      ∃ f, (within ctx depth d scope).outcome = .error f ∧ p.spared f := by
  refine (p.withSameVariables.within_inStep depth hd (rfl : scope = scope)).imp_left ?_
  rintro ⟨houtcome, hscope, hevents⟩
  exact Compilation.ext (sameOutcome_eq_iff.1 houtcome) hscope hevents

end DocumentPairing

end Compile

end CommentMarkup
