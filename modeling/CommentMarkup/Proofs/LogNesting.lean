/-
# Brackets in the log

Of the messages of a compilation, two are marks of a document: that it has been cut into blocks,
and that it has been compiled.  They are brackets.  Between the marks of a document stand the
marks of the templates that it includes, in their order, and no others: whatever else is noted in
between is no mark (`record`).  A file that is copied, or put in as base64, leaves no mark.

The record is read off the documents and the store.  That a compilation which succeeds shows it,
at a verbosity of 3 or more, is shown for one directive, one block and one document at a time,
given that it is so for the documents that are opened, and then by induction on the depth
(`marks_within`).  So the brackets are well nested (`wellNested_record`).

The verbosity itself only chooses among the messages (`document_followed`).
-/
import CommentMarkup.Proofs.Output
import CommentMarkup.Proofs.Verbosity

namespace CommentMarkup

/-! ### Marks -/

/-- Whether a message tells that a document has been cut into blocks, or that it has been
compiled. -/
def Log.isMark (message : Text) : Bool :=
  "Scanned ".toList.isPrefixOf message || "Compiled ".toList.isPrefixOf message

/-- The marks among the messages of some events that are shown at a verbosity. -/
def Event.marks (verbosity : Option Int) (events : List Event) : List Text :=
  (Log.shown verbosity (entries events)).filter Log.isMark

namespace Note

/-- Whether a note is about the beginning or the end of a document. -/
def isMark : Note → Bool
  | .scanned .. | .compiled .. => true
  | .executing .. | .resolved .. | .including .. => false

/-- Notes that begin and end in pairs, one inside the other or one behind the other.  Both notes
of a pair name the same file and the same number of blocks. -/
inductive WellNested : List Note → Prop where
  /-- There are no notes. -/
  | nil : WellNested []
  /-- A document that is begun and ended, and what stands behind it. -/
  | pair (file : Path) (blocks : Nat) {inner rest : List Note} (hinner : WellNested inner)
      (hrest : WellNested rest) :
      WellNested (.scanned file blocks :: (inner ++ .compiled file blocks :: rest))

lemma WellNested.append {first later : List Note} (hfirst : WellNested first)
    (hlater : WellNested later) : WellNested (first ++ later) := by
  induction hfirst with
  | nil => exact hlater
  | @pair file blocks inner rest hinner _ _ ih =>
    rw [List.cons_append, List.append_assoc, List.cons_append]
    exact .pair file blocks hinner ih

lemma WellNested.flatMap {α : Type} {f : α → List Note} {as : List α}
    (h : ∀ a ∈ as, WellNested (f a)) : WellNested (as.flatMap f) := by
  induction as with
  | nil => exact .nil
  | cons a rest ih =>
    rw [List.flatMap_cons]
    exact (h a List.mem_cons_self).append (ih fun b hb => h b (List.mem_cons_of_mem _ hb))

lemma level_le (note : Note) : note.entry.level ≤ 3 := by
  cases note <;> simp [entry]

lemma isMark_message (note : Note) : Log.isMark note.entry.message = note.isMark := by
  cases note with
  | executing action offset => cases action <;> rfl
  | scanned | resolved | including | compiled => rfl

end Note

namespace Event

variable {verbosity : Option Int} {v : Int}

lemma marks_append (first later : List Event) :
    marks verbosity (first ++ later) = marks verbosity first ++ marks verbosity later := by
  simp [marks, Log.shown, entries]

lemma marks_flatMap {α : Type} (f : α → List Event) (as : List α) :
    marks verbosity (as.flatMap f) = as.flatMap fun a => marks verbosity (f a) := by
  induction as with
  | nil => rfl
  | cons a rest ih => rw [List.flatMap_cons, List.flatMap_cons, marks_append, ih]

lemma marks_cons_of_isCall {e : Event} (h : e.isCall = true) (events : List Event) :
    marks verbosity (e :: events) = marks verbosity events := by
  cases e with
  | probed | refused | read => rfl
  | noted | said => simp [isCall] at h

lemma marks_of_calls {events : List Event} (h : ∀ e ∈ events, e.isCall = true) :
    marks verbosity events = [] := by
  induction events with
  | nil => rfl
  | cons e rest ih =>
    rw [marks_cons_of_isCall (h e List.mem_cons_self),
      ih fun e' he => h e' (List.mem_cons_of_mem _ he)]

/-- All notes are shown at a verbosity of 3 or more, and only the marks among them count. -/
lemma marks_cons_noted (hv : 3 ≤ v) (note : Note) (events : List Event) :
    marks (some v) (.noted note :: events)
      = if note.isMark then note.entry.message :: marks (some v) events
        else marks (some v) events := by
  have hshown : note.entry.isShown (some v) = true := by
    simpa [Log.Entry.isShown] using Int.le_trans note.level_le hv
  have hentries : entries (.noted note :: events) = note.entry :: entries events := rfl
  rw [marks, hentries, Log.shown, List.filter_cons_of_pos hshown, List.map_cons, List.filter_cons,
    note.isMark_message]
  rfl

end Event

namespace Compile

/-! ### The record of a document -/

/-- The templates that a directive includes, in their order. -/
def templates (ctx : Context) (d : Document) : Directive → List Document
  | .inclusion specs base64 => specs.filterMap fun spec =>
    (Include.resolve ctx d spec).outcome.toOption.bind (opened? ctx d base64)
  | _ => []

/-- The templates that the directives among some blocks include, in their order. -/
def includedTemplates (ctx : Context) (d : Document) (bs : List Block) : List Document :=
  (bs.filter (·.isSpecial)).flatMap fun b => templates ctx d b.directive

/-- The notes that a document has been begun and ended, and between them those of the templates
that it includes, to a given depth. -/
def record (ctx : Context) : Nat → Document → List Note
  | 0, _ => []
  | depth + 1, d =>
    match Block.scan d.text with
    | .error _ => []
    | .ok bs => .scanned d.file bs.length ::
      ((includedTemplates ctx d bs).flatMap (record ctx depth) ++ [.compiled d.file bs.length])

theorem wellNested_record (ctx : Context) (depth : Nat) (d : Document) :
    Note.WellNested (record ctx depth d) := by
  induction depth generalizing d with
  | zero => exact .nil
  | succ depth ih =>
    rw [record]
    split
    · exact .nil
    · exact .pair d.file _ (.flatMap fun template _ => ih template) .nil

lemma includedTemplates_append (ctx : Context) (d : Document) (first later : List Block) :
    includedTemplates ctx d (first ++ later)
      = includedTemplates ctx d first ++ includedTemplates ctx d later := by
  simp [includedTemplates]

variable {ctx : Context} {nested : Document → Scope → Run Text} {d : Document} {scope : Scope}
  {b : Block} {specs : List Text} {base64 : Bool} {path : Path} {text : Text} {v : Int}

/-! ### One level

If every template that is opened and compiled to a text leaves its own marks, then so does each
piece of the document that opens it: the marks of the templates that it includes, in order. -/

/-- A template that is opened leaves what compiling it does. -/
lemma load_of_opened {template : Document} (h : opened? ctx d base64 path = some template) :
    (load ctx nested d scope base64 path).outcome = (nested template scope).outcome := by
  unfold opened? at h
  split at h
  · simp at h
  · next hbase64 =>
    split at h
    · simp at h
    · next bytes hbytes =>
      split at h
      · simp at h
      · next source hsource =>
        split at h
        · next htemplate =>
          obtain rfl := Option.some.inj h
          have hread : (readFile ctx.store path).outcome = .ok bytes := readFile_eq_ok_iff.2 hbytes
          rw [load, Run.bind_of_ok hread, if_neg hbase64, Run.bind_of_ok hsource, if_pos htemplate]
          rfl
        · simp at h

/-- An include that succeeds has found all of its files and loaded them. -/
lemma exists_paths_of_inclusion
    (h : (inclusion ctx nested d scope specs base64).outcome = .ok text) :
    ∃ paths texts,
      List.Forall₂ (fun spec path => (Include.resolve ctx d spec).outcome = .ok path) specs paths ∧
      List.Forall₂ (fun path t => (load ctx nested d scope base64 path).outcome = .ok t) paths
        texts ∧
      (inclusion ctx nested d scope specs base64).events
        = (specs.flatMap fun spec => (Include.resolve ctx d spec).events) ++
          paths.flatMap fun path => (load ctx nested d scope base64 path).events := by
  unfold inclusion at h ⊢
  split at h
  · simp at h
  · next hnamed =>
    rw [if_neg hnamed]
    obtain ⟨paths, hpaths, h⟩ := Run.bind_eq_ok_iff.1 h
    obtain ⟨texts, htexts, -⟩ := Run.bind_eq_ok_iff.1 h
    have hfound := Run.forEach_eq_ok_iff.1 hpaths
    have hloaded := Run.forEach_eq_ok_iff.1 htexts
    refine ⟨paths, texts, hfound, hloaded, ?_⟩
    rw [Run.forEach_of_ok hfound, Run.bind_of_ok rfl, Run.forEach_of_ok hloaded,
      Run.bind_of_ok rfl]
    exact congrArg _ (List.append_nil _)

/-- The templates that an include opens are those among its files. -/
lemma templates_of_forall₂ {paths : List Path}
    (h : List.Forall₂ (fun spec path => (Include.resolve ctx d spec).outcome = .ok path) specs
      paths) :
    templates ctx d (.inclusion specs base64) = paths.filterMap (opened? ctx d base64) := by
  unfold templates
  induction h with
  | nil => rfl
  | @cons spec path _ _ hpath _ ih =>
    have hfound : (Include.resolve ctx d spec).outcome.toOption = some path := by
      rw [hpath]
      rfl
    simp only [List.filterMap_cons, hfound, Option.bind_some] at ih ⊢
    rw [ih]

section Level

variable {inner : Document → List Text} (hv : 3 ≤ v)

include hv

lemma marks_resolve (spec : Text) :
    Event.marks (some v) (Include.resolve ctx d spec).events = [] := by
  have hsearch : Event.marks (some v) (Include.firstExisting ctx.store
      (Include.candidates ctx.settings ctx.cwd d spec)).events = [] :=
    Event.marks_of_calls fun e he => Include.isCall_of_mem_firstExisting he
  unfold Include.resolve
  cases hfound : (Include.firstExisting ctx.store
      (Include.candidates ctx.settings ctx.cwd d spec)).outcome with
  | error f => rw [Run.bind_of_error hfound, hsearch]
  | ok found =>
    rw [Run.bind_of_ok hfound, Event.marks_append, hsearch]
    cases found with
    | none => rfl
    | some path =>
      simp only
      split
      · rfl
      · rw [Run.bind_of_ok rfl]
        exact Event.marks_cons_noted hv _ _

variable (hnested : ∀ d s t, (nested d s).outcome = .ok t →
    Event.marks (some v) (nested d s).events = inner d)

include hnested

lemma marks_load (h : (load ctx nested d scope base64 path).outcome = .ok text) :
    Event.marks (some v) (load ctx nested d scope base64 path).events
      = (opened? ctx d base64 path).toList.flatMap inner := by
  rw [load_events, loading, Event.marks_cons_of_isCall rfl]
  cases hopened : opened? ctx d base64 path with
  | none => rfl
  | some template =>
    rw [load_of_opened hopened] at h
    simp [Event.marks_cons_noted hv, hnested _ _ _ h, Note.isMark]

/-- Files that are loaded leave the marks of the templates among them. -/
lemma marks_loads {paths : List Path} {texts : List Text}
    (h : List.Forall₂ (fun path t => (load ctx nested d scope base64 path).outcome = .ok t) paths
      texts) :
    Event.marks (some v) (paths.flatMap fun path => (load ctx nested d scope base64 path).events)
      = (paths.filterMap (opened? ctx d base64)).flatMap inner := by
  induction h with
  | nil => rfl
  | @cons path t rest _ hload _ ih =>
    rw [List.flatMap_cons, Event.marks_append, marks_load hv hnested hload, ih]
    cases hopened : opened? ctx d base64 path <;> simp [hopened]

lemma marks_inclusion (h : (inclusion ctx nested d scope specs base64).outcome = .ok text) :
    Event.marks (some v) (inclusion ctx nested d scope specs base64).events
      = (templates ctx d (.inclusion specs base64)).flatMap inner := by
  obtain ⟨paths, texts, hpaths, htexts, hevents⟩ := exists_paths_of_inclusion h
  -- nothing is marked before all files are found
  rw [hevents, Event.marks_append, Event.marks_flatMap, templates_of_forall₂ hpaths,
    marks_loads hv hnested htexts]
  simp [marks_resolve hv]

lemma marks_execute (h : (execute ctx nested d scope b).outcome = .ok text) :
    Event.marks (some v) (execute ctx nested d scope b).events
      = (templates ctx d b.directive).flatMap inner := by
  have hdirective : Event.marks (some v) (directive ctx nested d scope b.directive).events
      = (templates ctx d b.directive).flatMap inner := by
    rw [execute_outcome] at h
    cases hb : b.directive with
    | inclusion specs base64 =>
      rw [hb] at h
      exact marks_inclusion hv hnested h
    | compilation | definition name value => rfl
    | reference name optional =>
      simp only [directive]
      split <;> rfl
  rw [execute, Event.marks_cons_noted hv, hdirective]
  rfl

lemma marks_block (h : (block ctx nested d scope b).outcome = .ok text) :
    Event.marks (some v) (block ctx nested d scope b).events
      = (includedTemplates ctx d [b]).flatMap inner := by
  cases hspecial : b.isSpecial with
  | false =>
    rw [block_of_not_isSpecial hspecial]
    simp [includedTemplates, hspecial, Event.marks, Log.shown, Event.entries]
  | true =>
    rw [block_of_isSpecial hspecial, marks_execute hv hnested ((block_eq_ok_iff hspecial).1 h)]
    simp [includedTemplates, hspecial]

/-- The blocks of a document leave the marks of the templates that they include. -/
lemma marks_of_reaches {c c' : Cursor} {events : List Event}
    (h : Reaches ctx nested d c text events c') (hend : c'.rest = []) :
    Event.marks (some v) events = (includedTemplates ctx d c.rest).flatMap inner := by
  induction h with
  | here c =>
    rw [hend]
    rfl
  | @skip previous b rest scope text events c hout _ ih =>
    rw [ih hend]
    simp [includedTemplates, not_isSpecial_of_collapses hout]
  | @keep previous b rest scope left text events c hin hleft _ ih =>
    rw [Event.marks_append, marks_block hv hnested hleft, ih hend, ← List.flatMap_append,
      ← includedTemplates_append]
    rfl

lemma marks_documentWith (h : (documentWith ctx nested d scope).outcome = .ok text) :
    ∃ bs, Block.scan d.text = .ok bs ∧
      Event.marks (some v) (documentWith ctx nested d scope).events
        = (Note.scanned d.file bs.length).entry.message ::
          ((includedTemplates ctx d bs).flatMap inner ++
            [(Note.compiled d.file bs.length).entry.message]) := by
  cases hscan : Block.scan d.text with
  | error offset => simp [documentWith_of_scan_error hscan] at h
  | ok bs =>
    rw [(documentWith_of_scan_ok hscan).1] at h
    obtain ⟨events, previous, scope', hreach⟩ := exists_reaches_of_ok h
    have hbody : blocks ctx nested d none bs scope = ⟨.ok text, scope', events⟩ :=
      hreach.compile_eq
    refine ⟨bs, rfl, ?_⟩
    simp only [documentWith, hscan, hbody, Event.marks_cons_noted hv, Event.marks_append,
      marks_of_reaches hv hnested hreach rfl]
    rfl

end Level

/-! ### All levels -/

/-- A compilation that succeeds shows the record of its document. -/
theorem marks_within (hv : 3 ≤ v) (depth : Nat)
    (h : (within ctx depth d scope).outcome = .ok text) :
    Event.marks (some v) (within ctx depth d scope).events
      = (record ctx depth d).map (·.entry.message) := by
  induction depth generalizing d scope text with
  | zero => simp [within] at h
  | succ depth ih =>
    have hnested : ∀ d s t, (nestedWithin ctx depth d s).outcome = .ok t →
        Event.marks (some v) (nestedWithin ctx depth d s).events
          = (record ctx depth d).map (·.entry.message) := fun d s t h => ih h
    obtain ⟨bs, hscan, hmarks⟩ := marks_documentWith hv hnested h
    rw [record, hscan]
    simp only [List.map_cons, List.map_append, List.map_flatMap]
    exact hmarks

/-- The verbosity chooses among the messages of a compilation, and does nothing else.

Asking it at every note, a compilation has the same result, the same variables and the same calls
of the store as without asking, and its messages are the ones that are shown.  So of two
verbosities the lower one changes nothing but that it shows, of the messages of the higher one,
those up to its level; without a verbosity there are none.  If the compilation succeeds at a
verbosity of 3 or more, the messages that a document has been cut into blocks and that it has been
compiled are well nested: one pair for the document itself, with the same file and the same number
of blocks, and between the two the pairs of the templates that it includes. -/
theorem document_followed (ctx : Context) (d : Document) (scope : Scope) :
    let followed verbosity := Followed.document verbosity ctx d scope
    let calls (c : Compilation) := c.events.filter Event.isCall
    let log verbosity := Event.entries (followed verbosity).events
    let notes := record ctx (depthBound ctx.store + 1) d
    (∀ verbosity, (followed verbosity).outcome = (document ctx d scope).outcome ∧
        (followed verbosity).scope = (document ctx d scope).scope ∧
        calls (followed verbosity) = calls (document ctx d scope) ∧
        (log verbosity).map (·.message)
          = Log.shown verbosity (Event.entries (document ctx d scope).events)) ∧
      log none = [] ∧
      (∀ v w, v ≤ w → (followed v).outcome = (followed w).outcome ∧
        (followed v).scope = (followed w).scope ∧ calls (followed v) = calls (followed w) ∧
        log v = (log w).filter (·.isShown v)) ∧
      ∀ (v : Int) text, 3 ≤ v → (followed (some v)).outcome = .ok text →
        Note.WellNested notes ∧
          ((log (some v)).map (·.message)).filter Log.isMark = notes.map (·.entry.message) := by
  intro followed calls log notes
  have hsame : ∀ verbosity, (followed verbosity).outcome = (document ctx d scope).outcome ∧
      (followed verbosity).scope = (document ctx d scope).scope := by
    intro verbosity
    simp only [followed, Followed.document_eq]
    exact ⟨rfl, rfl⟩
  have hcalls : ∀ verbosity, calls (followed verbosity) = calls (document ctx d scope) :=
    fun verbosity => Followed.calls_document verbosity ctx d scope
  have hlog : ∀ verbosity, log verbosity
      = (Event.entries (document ctx d scope).events).filter (·.isShown verbosity) :=
    fun verbosity => Followed.entries_document verbosity ctx d scope
  have hmessages : ∀ verbosity, (log verbosity).map (·.message)
      = Log.shown verbosity (Event.entries (document ctx d scope).events) :=
    fun verbosity => by rw [hlog, Log.shown]
  refine ⟨fun verbosity => ⟨(hsame verbosity).1, (hsame verbosity).2, hcalls verbosity,
    hmessages verbosity⟩, ?_, fun v w hvw => ?_, fun v text hv htext => ?_⟩
  · rw [hlog]
    exact List.filter_eq_nil_iff.2 fun e _ => by simp [Log.Entry.isShown]
  · refine ⟨(hsame v).1.trans (hsame w).1.symm, (hsame v).2.trans (hsame w).2.symm,
      (hcalls v).trans (hcalls w).symm, ?_⟩
    rw [hlog, hlog, Log.filter_isShown_of_le hvw]
  · rw [(hsame (some v)).1] at htext
    refine ⟨wellNested_record ctx _ d, ?_⟩
    rw [hmessages]
    exact marks_within hv _ htext

/-- A template and a file that is copied, included together, and the template once more as
base64. -/
theorem document_followed_of_include :
    let m : MemoryStore :=
      ⟨[("/site/b.kit".toList, Encoding.utf8Bytes "<!--$n-->".toList),
        ("/site/c.txt".toList, Encoding.utf8Bytes "c".toList)], []⟩
    let ctx : Context := ⟨m.toStore, {}, "/site".toList, Codec.builtIn⟩
    let d : Document :=
      { text := "<!--@include b, c.txt-->\n<!--@import-base64 b-->".toList
        file := "/site/a.kit".toList, rootDir := "/site".toList, parents := [] }
    let initial : Scope := .ofList [("n".toList, "1".toList)]
    let followed verbosity := Followed.document verbosity ctx d initial
    let log verbosity := Event.entries (followed verbosity).events
    log (some 2) = (log (some 3)).filter (·.isShown (some 2)) ∧
      ((log (some 3)).map (·.message)).filter Log.isMark
        = ["Scanned 3 blocks from /site/a.kit".toList, "Scanned 1 blocks from /site/b.kit".toList,
          "Compiled /site/b.kit: 1 blocks".toList, "Compiled /site/a.kit: 3 blocks".toList] := by
  intro m ctx d initial followed log
  obtain ⟨hsame, -, hlower, hmarks⟩ := document_followed ctx d initial
  have hok : (document ctx d initial).outcome = .ok "1\nc\nPCEtLSRuLS0+".toList := by
    decide +kernel
  refine ⟨(hlower (some 2) (some 3) (Option.some_le_some.2 (by decide))).2.2.2, ?_⟩
  rw [(hmarks 3 _ (by decide) ((hsame (some 3)).1.trans hok)).2]
  decide +kernel

end Compile

end CommentMarkup
