/-
# What a failure is caused by

A failure that has passed some include directives is wrapped once at each of them.  Every layer
says the same as the one around it, but for the last entry of its trace, which that one has added
(`Report.wrapped`).  So the causes of a failure are its own reports with shorter and shorter traces
(`Diagnostic.causes_wrapAll`).  At their end stands what the innermost layer comes from: nothing if
the directive itself is wrong, and otherwise the fault with which a file answered it (`Refuses`),
in whose words the problem is put (`failure_causes`).

What passes all documents is wrapped by none of them, and has no causes (`failure_without_causes`).
-/
import CommentMarkup.Proofs.Location

namespace CommentMarkup

/-- The reports that a report with a trace has been wrapped around, the outermost first: each of
them lacks what the ones around it have added to the trace. -/
def Report.wrapped (r : Report) : List Report :=
  (List.range r.trace.length).reverse.map fun j => { r with trace := r.trace.take j }

/-- A diagnostic that has passed some include directives has been wrapped at each of them. -/
lemma Diagnostic.causes_wrapAll (sites : List Site) (d : Diagnostic) :
    (d.wrapAll sites).causes = (List.range sites.length).reverse.map (fun j =>
      Cause.report { d.report with trace := d.report.trace ++ sites.take j }) ++ d.causes := by
  induction sites generalizing d with
  | nil => rfl
  | cons site sites ih =>
    have hcons : d.wrapAll (site :: sites) = (d.wrap site).wrapAll sites := rfl
    have hlast : (d.wrap site).causes = .report d.report :: d.causes := rfl
    have hreport : (d.wrap site).report = { d.report with trace := d.report.trace ++ [site] } := rfl
    rw [hcons, ih, hlast, hreport, List.length_cons, List.range_succ_eq_map, List.reverse_cons,
      List.map_append, List.append_assoc, ← List.map_reverse, List.map_map]
    simp [Function.comp_def]

/-- Passing include directives with an empty trace. -/
lemma Diagnostic.causes_wrapAll_of_trace {d : Diagnostic} (h : d.report.trace = [])
    (sites : List Site) :
    (d.wrapAll sites).causes = (d.wrapAll sites).report.wrapped.map .report ++ d.causes := by
  rw [causes_wrapAll, report_wrapAll, Report.wrapped, h, List.map_map]
  rfl

namespace Compile

variable {ctx : Context} {d : Document} {scope : Scope} {depth : Nat} {f : Failure}

/-- The causes of a failing compilation.  It begins at a comment of a document, and its trace has
an entry for each document that waits for this one.  If the comment itself is wrong, the failure is
this problem, and its causes are the reports that it has been wrapped around; if a file answers the
comment with a fault, the failure is a problem in the words of the fault, and the fault stands
behind these reports. -/
def HasCauses (ctx : Context) (c : Call) (f : Failure) : Prop :=
  ∃ (diagnostic : Diagnostic) (frames : List Frame) (failing : Call) (offset : Nat),
    f = .diagnosed diagnostic ∧ Descends ctx c frames failing ∧
    diagnostic.report.trace = frames.reverse.map Frame.site ∧
    ((∃ problem, FailsAt ctx failing offset (.ofProblem problem) ∧
        diagnostic.report.problem = problem ∧
        diagnostic.causes = diagnostic.report.wrapped.map .report) ∨
      ∃ fault b, FailsAt ctx failing offset (.fault fault) ∧
        b.start = offset ∧ Refuses ctx failing.document b (.fault fault) ∧
        diagnostic.report.problem = .general fault.message ∧
        diagnostic.causes = diagnostic.report.wrapped.map .report ++ [.fault fault])

/-- With an encoding that exists, the causes of a failure mirror its trace, unless the failure
passes all documents. -/
lemma hasCauses_or_unlocated {codec : Codec} (hcodec : ctx.codec? = some codec)
    (h : (within ctx depth d scope).outcome = .error f) :
    HasCauses ctx ⟨depth, d, scope⟩ f ∨ Unlocated ctx ⟨depth, d, scope⟩ f := by
  rcases failure_cases hcodec h with hunlocated |
    ⟨frames, failing, offset, own, inner, hdescends, hfails, rfl, hinner⟩
  · exact Or.inr hunlocated
  let located := inner.locate (siteOf failing.document offset)
  obtain ⟨hfresh, htrace, hnew⟩ : inner.isLocated = false ∧ inner.report.trace = [] ∧
      located.report.trace = [] ∧ located.causes = inner.causes := by
    rcases hinner with ⟨p, -, rfl⟩ | ⟨fault, b, -, rfl, -, -⟩ <;> exact ⟨rfl, rfl, rfl, rfl⟩
  have hreport := Diagnostic.report_wrapAll_locate hfresh htrace (siteOf failing.document offset)
    (frames.reverse.map Frame.site)
  have hcauses := Diagnostic.causes_wrapAll_of_trace hnew.1 (frames.reverse.map Frame.site)
  rw [hnew.2] at hcauses
  refine Or.inl ⟨_, frames, failing, offset, rfl, hdescends, by rw [hreport], ?_⟩
  rcases hinner with ⟨p, rfl, rfl⟩ | ⟨fault, b, rfl, rfl, hstart, hrefuses⟩
  · exact Or.inl ⟨p, hfails, by rw [hreport]; rfl, hcauses.trans (List.append_nil _)⟩
  · exact Or.inr ⟨fault, b, hfails, hstart, hrefuses, by rw [hreport]; rfl, hcauses⟩

/-- With an encoding that exists, the causes of a failing compilation, to whatever depth documents
may be nested, mirror its trace exactly if its failure is not one of those that pass all documents.

If the codec points at what it refuses, if the settings have normal templates, and if the store has
no more templates than it has room for, then this holds of every failure. -/
theorem failure_causes (ctx : Context) (codec : Codec) (hcodec : ctx.codec? = some codec)
    (d : Document) (scope : Scope) :
    (∀ depth f, (within ctx depth d scope).outcome = .error f →
      (HasCauses ctx ⟨depth, d, scope⟩ f ↔ ¬ Unlocated ctx ⟨depth, d, scope⟩ f)) ∧
      ∀ paths, codec.PointsOut → ctx.store.TemplatesIn ctx.settings paths →
        paths.card ≤ ctx.store.capacity → Path.isAbsolute ctx.cwd = true →
          ctx.settings.NormalTemplates →
            ∀ f, (document ctx d scope).outcome = .error f →
              HasCauses ctx ⟨depthBound ctx.store + 1, d, scope⟩ f := by
  refine ⟨fun depth f h => ⟨?_, ?_⟩, fun paths hpoints hpaths hcard hcwd hnormal f h => ?_⟩
  · rintro ⟨diagnostic, _, _, _, hdiagnosed, -⟩ hunlocated
    exact hunlocated.ne_diagnosed diagnostic hdiagnosed
  · exact (hasCauses_or_unlocated hcodec h).resolve_right
  · exact (hasCauses_or_unlocated hcodec h).resolve_right
      (not_unlocated hcodec hpoints hpaths hcard hcwd hnormal h)

/-- A file that is no text, included by a template of a template. -/
theorem failure_causes_of_undecodable_file :
    let m : MemoryStore :=
      ⟨[("/site/b.kit".toList, Encoding.utf8Bytes "\n<!--@include c-->".toList),
        ("/site/c.kit".toList, Encoding.utf8Bytes "c<!--@include d.txt-->".toList),
        ("/site/d.txt".toList, [0x64, 0xFF])], []⟩
    let ctx : Context := ⟨m.toStore, {}, "/site".toList, Codec.builtIn⟩
    let d : Document :=
      { text := "<!--@include b-->".toList, file := "/site/a.kit".toList
        rootDir := "/site".toList, parents := [] }
    let fault : Fault := .undecodable ⟨"utf-8".toList, 1, [0xFF], .invalidStart⟩
    let inner : Report :=
      { problem := .general
          "'utf-8' codec can't decode byte 0xff in position 1: invalid start byte".toList
        file := some "/site/c.kit".toList, line := some 1, column := some 2, trace := [] }
    let once : Report := { inner with trace := [⟨"/site/b.kit".toList, 2, 1⟩] }
    let twice : Report :=
      { inner with trace := [⟨"/site/b.kit".toList, 2, 1⟩, ⟨"/site/a.kit".toList, 1, 1⟩] }
    let diagnostic : Diagnostic := .wrapping twice (.wrapping once (.root inner (some fault)))
    (document ctx d .empty).outcome = .error (.diagnosed diagnostic) ∧
      diagnostic.causes = [.report once, .report inner, .fault fault] ∧
      HasCauses ctx ⟨depthBound ctx.store + 1, d, .empty⟩ (.diagnosed diagnostic) := by
  intro m ctx d fault inner once twice diagnostic
  have hmark : '/' ∉ ctx.settings.partialMark := by decide
  have hext : ∀ e ∈ ctx.settings.templateExtensions, '/' ∉ e.text := by decide
  have hf : (document ctx d .empty).outcome = .error (.diagnosed diagnostic) := by decide +kernel
  exact ⟨hf, rfl, (failure_causes ctx (.ofEncoding .utf8) rfl d .empty).2 _
    (Codec.pointsOut_ofEncoding .utf8) (m.templatesIn ctx.settings)
    (m.card_templates_le ctx.settings) (by decide)
    (ctx.settings.normalTemplates_of_no_separator hmark hext) _ hf⟩

/-- A failure that nothing wraps: the codec fails as a whole on a file that an included template
includes. -/
theorem failure_without_causes :
    let ctx : Context :=
      { store := (MemoryStore.mk
          [("/site/b.kit".toList, Encoding.utf8Bytes "b".toList)] []).toStore
        settings := { encoding := "undefined".toList }
        cwd := "/site".toList
        codecs := Codec.builtIn }
    let d : Document :=
      { text := "<!--@include b-->".toList, file := "/site/a.kit".toList
        rootDir := "/site".toList, parents := [] }
    let message : Text :=
      "decoding with 'undefined' codec failed (UnicodeError: undefined encoding)".toList
    ctx.codec?.isSome = true ∧
      (document ctx d .empty).outcome = .error (.brokenCodec message) ∧
      ∀ c, ¬ HasCauses ctx c (.brokenCodec message) := by
  intro ctx d message
  refine ⟨by decide, by decide +kernel, ?_⟩
  rintro c ⟨diagnostic, _, _, _, hf, -⟩
  simp at hf

end Compile

end CommentMarkup
