/-
# Where a compilation fails

A failure begins at one comment of one document (`FailsAt`), and gets its location there.  On
its way out it passes the include directive of every document that waits for the failing one;
each of them adds its place to the trace and leaves the location alone.  So the location of a
failure and its trace say exactly where it has come from (`failure_located`).

Two kinds of failures pass all documents as they are, and have no location (`Unlocated`).  The one
is of a codec that fails without pointing at any bytes, which is no fault of the file for it.  The
other is of a run that is cut off by its depth, and has no place in the documents: it says that
documents are nested to the whole depth.  Both do happen (`failure_not_located`).
-/
import CommentMarkup.Proofs.Scan
import CommentMarkup.Proofs.Termination

namespace CommentMarkup

/-! ### On the way out -/

/-- A diagnostic that has passed some include directives, the innermost first. -/
def Diagnostic.wrapAll (sites : List Site) (d : Diagnostic) : Diagnostic :=
  sites.foldl (fun d site => d.wrap site) d

/-- A failure that has left some directives, the innermost first. -/
def Failure.leavingAll (sites : List Site) (f : Failure) : Failure :=
  sites.foldl (fun f site => f.leaving site) f

/-- Passing include directives changes nothing but the trace. -/
lemma Diagnostic.report_wrapAll (sites : List Site) (d : Diagnostic) :
    (d.wrapAll sites).report = { d.report with trace := d.report.trace ++ sites } := by
  induction sites generalizing d with
  | nil => simp [wrapAll]
  | cons site sites ih =>
    have hcons : d.wrapAll (site :: sites) = (d.wrap site).wrapAll sites := rfl
    rw [hcons, ih, wrap, report, List.append_assoc, List.singleton_append]

/-- A problem without a location gets the one of its directive, and the include directives that it
passes then become its trace. -/
lemma Diagnostic.report_wrapAll_locate {d : Diagnostic} (hfresh : d.isLocated = false)
    (htrace : d.report.trace = []) (site : Site) (sites : List Site) :
    ((d.locate site).wrapAll sites).report =
      { problem := d.report.problem, file := some site.file, line := some site.line
        column := some site.column, trace := sites } := by
  have hlocate : (d.locate site).report = { d.report with
      file := some site.file, line := some site.line, column := some site.column } := by
    rw [locate, hfresh, if_neg Bool.false_ne_true]
    cases d <;> rfl
  rw [report_wrapAll, hlocate, htrace]
  rfl

/-- A located problem is wrapped at every include directive. -/
lemma Failure.leavingAll_of_isLocated {d : Diagnostic} (h : d.isLocated = true)
    (sites : List Site) : (Failure.diagnosed d).leavingAll sites = .diagnosed (d.wrapAll sites) := by
  induction sites generalizing d with
  | nil => rfl
  | cons site sites ih =>
    have hleaving : (Failure.diagnosed d).leaving site = .diagnosed (d.wrap site) := by
      simp [leaving, h]
    have hcons : (Failure.diagnosed d).leavingAll (site :: sites)
        = ((Failure.diagnosed d).leaving site).leavingAll sites := rfl
    have hwrap : (d.wrap site).isLocated = true := h
    rw [hcons, hleaving, ih hwrap]
    rfl

lemma Failure.leavingAll_brokenCodec (sites : List Site) (message : Text) :
    (Failure.brokenCodec message).leavingAll sites = .brokenCodec message := by
  induction sites with
  | nil => rfl
  | cons site sites ih => exact ih

namespace Compile

/-! ### Where a failure begins -/

/-- A comment of a document fails, and not because a document does that it opens. -/
inductive FailsAt (ctx : Context) : Call → Nat → Failure → Prop where
  /-- It is never closed. -/
  | unclosed {depth : Nat} {d : Document} {scope : Scope} {offset : Nat}
      (scan : Block.scan d.text = .error offset) :
      FailsAt ctx ⟨depth + 1, d, scope⟩ offset
        (.ofProblem (.unterminatedComment unterminatedMessage))
  /-- It is a directive whose execution fails. -/
  | directive {depth : Nat} {d : Document} {scope scope' : Scope} {b : Block} {f : Failure}
      (executes : Executes ctx (nestedWithin ctx depth) d scope b scope')
      (fails : (execute ctx (nestedWithin ctx depth) d scope' b).outcome = .error f)
      (own : IsFresh ctx d b f) :
      FailsAt ctx ⟨depth + 1, d, scope⟩ b.start f

variable {ctx : Context} {d : Document} {scope : Scope} {depth offset : Nat} {f : Failure}
  {c : Call}

/-- A comment that fails has something wrong with it, or is an include that a file answers with a
failure. -/
lemma FailsAt.problem_or_refuses (h : FailsAt ctx c offset f) :
    (∃ p, f = .ofProblem p) ∨ ∃ b, b.start = offset ∧ Refuses ctx c.document b f := by
  cases h with
  | unclosed _ => exact Or.inl ⟨_, rfl⟩
  | directive _ _ own =>
    cases own with
    | problem p => exact Or.inl ⟨p, rfl⟩
    | refused h => exact Or.inr ⟨_, rfl, h⟩

/-- There is a comment where a document fails. -/
lemma FailsAt.opening_at (h : FailsAt ctx c offset f) :
    commentOpening <+: c.document.text.drop offset := by
  cases h with
  | unclosed hscan => exact Block.opening_at_of_scan_error hscan
  | directive hexec _ _ =>
    obtain ⟨bs, hscan, hb⟩ := hexec.mem_scan
    exact Block.opening_at_of_mem_scan hscan hb (Block.isComment_of_isSpecial hexec.1)

/-- A failure that is not one of depth begins at a comment, and leaves the document of that
comment and every document that waits for it. -/
theorem failure_origin (h : (within ctx depth d scope).outcome = .error f) (hf : f ≠ .tooDeep) :
    ∃ frames c offset f₀, Descends ctx ⟨depth, d, scope⟩ frames c ∧ FailsAt ctx c offset f₀ ∧
      f = (f₀.leaving (siteOf c.document offset)).leavingAll (frames.reverse.map Frame.site) := by
  induction depth generalizing d scope f with
  | zero => exact absurd (Except.error.inj h).symm hf
  | succ depth ih =>
    rcases within_succ_eq_error h with ⟨offset, hscan, rfl⟩ |
      ⟨b, scope', f₀, hexec, hf₀, hfresh, rfl⟩ | ⟨b, d', scope', f₁, hopens, hf₁, rfl⟩
    · -- a comment of the document is never closed
      exact ⟨[], _, offset, _, .here _, .unclosed hscan, rfl⟩
    · -- a directive of the document fails by itself
      exact ⟨[], _, b.start, f₀, .here _, .directive hexec hf₀ hfresh, rfl⟩
    · -- a document that it opens fails
      have hne : f₁ ≠ .tooDeep := fun h₁ => hf (leaving_eq_tooDeep_iff.2 h₁)
      obtain ⟨frames, c, offset, f₀, hdescends, hfails, rfl⟩ := ih hf₁ hne
      refine ⟨⟨d, b⟩ :: frames, c, offset, f₀, .into hopens hdescends, hfails, ?_⟩
      simp [Failure.leavingAll, Frame.site]

/-! ### Locations and traces -/

/-- A failure of a compilation has the location of the comment at which it begins, in the
document of that comment, and its trace lists the include directives that lead there, the
innermost first. -/
def IsLocated (ctx : Context) (c : Call) (f : Failure) : Prop :=
  ∃ (diagnostic : Diagnostic) (frames : List Frame) (failing : Call) (offset : Nat)
    (own : Failure),
    f = .diagnosed diagnostic ∧ diagnostic.isLocated = true ∧
    Descends ctx c frames failing ∧ FailsAt ctx failing offset own ∧
    commentOpening <+: failing.document.text.drop offset ∧
    diagnostic.report.file = some failing.document.file ∧
    diagnostic.report.line = some (Position.ofOffset failing.document.text offset).line ∧
    diagnostic.report.column = some (Position.ofOffset failing.document.text offset).column ∧
    diagnostic.report.trace = frames.reverse.map Frame.site

/-- A failure of a compilation that passes all documents on its way out. -/
inductive Unlocated (ctx : Context) (c : Call) : Failure → Prop where
  /-- The codec fails on the bytes of a file that an include names, without pointing at any of
  them. -/
  | codec {frames : List Frame} {failing : Call} {b : Block} {message : Text}
      (descends : Descends ctx c frames failing)
      (fails : FailsAt ctx failing b.start (.brokenCodec message))
      (refuses : Refuses ctx failing.document b (.brokenCodec message)) :
      Unlocated ctx c (.brokenCodec message)
  /-- The run is cut off with documents nested to its whole depth. -/
  | depth {frames : List Frame} {deepest : Call} (descends : Descends ctx c frames deepest)
      (length : frames.length = c.depth) : Unlocated ctx c .tooDeep

lemma Unlocated.ne_diagnosed (h : Unlocated ctx c f) (diagnostic : Diagnostic) :
    f ≠ .diagnosed diagnostic := by
  cases h <;> simp

/-- With a codec that points at what it refuses, and with room for all templates, there are no
such failures. -/
lemma not_unlocated {codec : Codec} {paths : Finset Path} (hcodec : ctx.codec? = some codec)
    (hpoints : codec.PointsOut) (hpaths : ctx.store.TemplatesIn ctx.settings paths)
    (hcard : paths.card ≤ ctx.store.capacity) (hcwd : Path.isAbsolute ctx.cwd = true)
    (hnormal : ctx.settings.NormalTemplates)
    (h : (document ctx d scope).outcome = .error f) : ¬ Unlocated ctx c f := by
  intro hunlocated
  cases hunlocated with
  | codec _ _ refuses =>
    cases refuses with
    | codec _ _ _ _ _ known broken =>
      obtain rfl := Option.some.inj (hcodec.symm.trans known)
      exact hpoints _ _ broken
  | depth _ _ => exact document_ne_tooDeep hcwd hnormal hpaths hcard d scope h

/-- With an encoding that exists, a failure passes all documents, or begins with a problem of a
comment or with a fault of a file that a comment asks for. -/
theorem failure_cases {codec : Codec} (hcodec : ctx.codec? = some codec)
    (h : (within ctx depth d scope).outcome = .error f) :
    Unlocated ctx ⟨depth, d, scope⟩ f ∨
      ∃ (frames : List Frame) (failing : Call) (offset : Nat) (own : Failure) (inner : Diagnostic),
        Descends ctx ⟨depth, d, scope⟩ frames failing ∧ FailsAt ctx failing offset own ∧
        f = .diagnosed ((inner.locate (siteOf failing.document offset)).wrapAll
          (frames.reverse.map Frame.site)) ∧
        ((∃ p, own = .ofProblem p ∧ inner = .ofProblem p) ∨
          ∃ fault b, own = .fault fault ∧ inner = .ofFault fault ∧ b.start = offset ∧
            Refuses ctx failing.document b (.fault fault)) := by
  by_cases hf : f = .tooDeep
  · rw [hf] at h ⊢
    obtain ⟨frames, deepest, hdescends, hlength⟩ := descends_of_tooDeep h
    exact Or.inl (.depth hdescends hlength)
  obtain ⟨frames, failing, offset, own, hdescends, hfails, rfl⟩ := failure_origin h hf
  have hwrapped : ∀ inner : Diagnostic,
      (inner.locate (siteOf failing.document offset)).isLocated = true →
      own.leaving (siteOf failing.document offset)
        = .diagnosed (inner.locate (siteOf failing.document offset)) →
      (own.leaving (siteOf failing.document offset)).leavingAll (frames.reverse.map Frame.site)
        = .diagnosed ((inner.locate (siteOf failing.document offset)).wrapAll
            (frames.reverse.map Frame.site)) := by
    intro inner hlocated hleaving
    rw [hleaving, Failure.leavingAll_of_isLocated hlocated]
  rcases hfails.problem_or_refuses with ⟨p, rfl⟩ | ⟨b, rfl, hrefuses⟩
  · exact Or.inr ⟨frames, failing, offset, _, _, hdescends, hfails, hwrapped (.ofProblem p) rfl rfl,
      Or.inl ⟨p, rfl, rfl⟩⟩
  rcases hrefuses.kinds with ⟨fault, rfl⟩ | ⟨message, rfl⟩ | hunknown
  · exact Or.inr ⟨frames, failing, b.start, _, _, hdescends, hfails,
      hwrapped (.ofFault fault) rfl rfl, Or.inr ⟨fault, b, rfl, rfl, rfl, hrefuses⟩⟩
  · rw [Failure.leaving, Failure.leavingAll_brokenCodec]
    exact Or.inl (.codec hdescends hfails hrefuses)
  · rw [hcodec] at hunknown
    simp at hunknown

/-- With an encoding that exists, a failure is located or passes all documents. -/
lemma isLocated_or_unlocated {codec : Codec} (hcodec : ctx.codec? = some codec)
    (h : (within ctx depth d scope).outcome = .error f) :
    IsLocated ctx ⟨depth, d, scope⟩ f ∨ Unlocated ctx ⟨depth, d, scope⟩ f := by
  rcases failure_cases hcodec h with hunlocated |
    ⟨frames, failing, offset, own, inner, hdescends, hfails, rfl, hinner⟩
  · exact Or.inr hunlocated
  obtain ⟨hfresh, htrace⟩ : inner.isLocated = false ∧ inner.report.trace = [] := by
    rcases hinner with ⟨p, -, rfl⟩ | ⟨fault, b, -, rfl, -, -⟩ <;> exact ⟨rfl, rfl⟩
  have hreport := Diagnostic.report_wrapAll_locate hfresh htrace (siteOf failing.document offset)
    (frames.reverse.map Frame.site)
  refine Or.inl ⟨_, frames, failing, offset, own, rfl, ?_, hdescends, hfails, hfails.opening_at, ?_⟩
  · rw [Diagnostic.isLocated, hreport]
    rfl
  · rw [hreport]
    exact ⟨rfl, rfl, rfl, rfl⟩

/-- With an encoding that exists, a failure of a compilation, to whatever depth documents may be
nested, is located where it begins and traced through the includes that lead there, exactly if it
is not one of those that pass all documents.

If the codec points at what it refuses, if the settings have normal templates, and if the store has
no more templates than it has room for, then every failure is located. -/
theorem failure_located (ctx : Context) (codec : Codec) (hcodec : ctx.codec? = some codec)
    (d : Document) (scope : Scope) :
    (∀ depth f, (within ctx depth d scope).outcome = .error f →
      (IsLocated ctx ⟨depth, d, scope⟩ f ↔ ¬ Unlocated ctx ⟨depth, d, scope⟩ f)) ∧
      ∀ paths, codec.PointsOut → ctx.store.TemplatesIn ctx.settings paths →
        paths.card ≤ ctx.store.capacity → Path.isAbsolute ctx.cwd = true →
          ctx.settings.NormalTemplates →
            ∀ f, (document ctx d scope).outcome = .error f →
              IsLocated ctx ⟨depthBound ctx.store + 1, d, scope⟩ f := by
  refine ⟨fun depth f h => ⟨?_, ?_⟩, fun paths hpoints hpaths hcard hcwd hnormal f h => ?_⟩
  · rintro ⟨diagnostic, _, _, _, _, hdiagnosed, -⟩ hunlocated
    exact hunlocated.ne_diagnosed diagnostic hdiagnosed
  · exact (isLocated_or_unlocated hcodec h).resolve_right
  · exact (isLocated_or_unlocated hcodec h).resolve_right
      (not_unlocated hcodec hpoints hpaths hcard hcwd hnormal h)

/-- A reference to an undefined variable in an included template. -/
theorem failure_located_of_nested_reference :
    let m : MemoryStore :=
      ⟨[("/site/b.kit".toList, Encoding.utf8Bytes "b <!--$name-->".toList)], []⟩
    let ctx : Context := ⟨m.toStore, {}, "/site".toList, Codec.builtIn⟩
    let d : Document :=
      { text := "a\n <!--@include b-->".toList, file := "/site/a.kit".toList
        rootDir := "/site".toList, parents := [] }
    let inner : Report :=
      { problem := .undefinedVariable "name".toList, file := some "/site/b.kit".toList
        line := some 1, column := some 3, trace := [] }
    let f : Failure := .diagnosed (.wrapping
      { inner with trace := [⟨"/site/a.kit".toList, 2, 2⟩] } (.root inner none))
    (document ctx d .empty).outcome = .error f ∧
      IsLocated ctx ⟨depthBound ctx.store + 1, d, .empty⟩ f := by
  intro m ctx d inner f
  have hmark : '/' ∉ ctx.settings.partialMark := by decide
  have hext : ∀ e ∈ ctx.settings.templateExtensions, '/' ∉ e.text := by decide
  have hf : (document ctx d .empty).outcome = .error f := by decide +kernel
  exact ⟨hf, (failure_located ctx (.ofEncoding .utf8) rfl d .empty).2 _
    (Codec.pointsOut_ofEncoding .utf8) (m.templatesIn ctx.settings)
    (m.card_templates_le ctx.settings) (by decide)
    (ctx.settings.normalTemplates_of_no_separator hmark hext) f hf⟩

/-- A failure without a location: an include of a file that the codec fails on as a whole, and
a document that includes itself again and again under a spelling that is not normal. -/
theorem failure_not_located :
    let undecoded : Context :=
      { store := (MemoryStore.mk [("/site/b.txt".toList, Encoding.utf8Bytes "x".toList)] []).toStore
        settings := { encoding := "undefined".toList }
        cwd := "/site".toList
        codecs := Codec.builtIn }
    let endless : Context :=
      { store := (MemoryStore.mk
          [("/site/./a.kit".toList, Encoding.utf8Bytes "<!--@include a-->".toList)] []).toStore
        settings := { partialMark := "./".toList }
        cwd := "/site".toList
        codecs := Codec.builtIn }
    let d (text : Text) : Document :=
      { text := text, file := "/site/a.kit".toList, rootDir := "/site".toList, parents := [] }
    let message : Text :=
      "decoding with 'undefined' codec failed (UnicodeError: undefined encoding)".toList
    (undecoded.codec?.isSome = true ∧
      (document undecoded (d "<!--@include b.txt-->".toList) .empty).outcome
        = .error (.brokenCodec message) ∧
      ∀ c, ¬ IsLocated undecoded c (.brokenCodec message)) ∧
      endless.codec?.isSome = true ∧
      (document endless (d "<!--@include a-->".toList) .empty).outcome = .error .tooDeep ∧
      ∀ c, ¬ IsLocated endless c .tooDeep := by
  have hdiagnosed : ∀ ctx c f, IsLocated ctx c f → ∃ diagnostic, f = .diagnosed diagnostic :=
    fun _ _ _ ⟨diagnostic, _, _, _, _, hf, _⟩ => ⟨diagnostic, hf⟩
  intro undecoded endless d message
  refine ⟨⟨by decide, by decide +kernel, fun c h => ?_⟩, by decide, by decide +kernel,
    fun c h => ?_⟩
  · obtain ⟨diagnostic, hf⟩ := hdiagnosed _ _ _ h
    simp at hf
  · obtain ⟨diagnostic, hf⟩ := hdiagnosed _ _ _ h
    simp at hf

end Compile

end CommentMarkup
