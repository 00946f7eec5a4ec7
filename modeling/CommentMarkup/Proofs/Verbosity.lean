/-
# Compiling with a verbosity

The compiler notes everything that it does, and the verbosity chooses among the notes when all is
done.  One can also ask the verbosity at every single note, and write down only what it shows.
`Followed` compiles like this: each of its functions does what its namesake in `Compile` does, but
the notes go through `Run.tell`.

Asking at once or at the end comes to the same.  What is compiled with a verbosity is what is
compiled without, heard with this verbosity (`Followed.document_eq`): its result, its variables
and its calls of the store are the same, and its messages are the ones that are shown.  The proof
goes up function by function, since hearing goes through a step after another
(`Run.heard_bind`), and then by induction on the depth.
-/
import CommentMarkup.Proofs.Progress
import CommentMarkup.Proofs.StoreAccess

namespace CommentMarkup

/-! ### Told and heard -/

/-- A note, if it is shown at a verbosity. -/
def Note.told (verbosity : Option Int) (note : Note) : List Event :=
  if note.entry.isShown verbosity then [.noted note] else []

/-- The step that only makes a note, if it is shown at a verbosity. -/
def Run.tell (verbosity : Option Int) (note : Note) : Run Unit := ⟨.ok (), note.told verbosity⟩

/-- Whether an event has no message that is not shown at a verbosity. -/
def Event.isHeard (verbosity : Option Int) (e : Event) : Bool :=
  e.entry?.all (·.isShown verbosity)

/-- A run without the messages that are not shown. -/
def Run.heard {α : Type} (verbosity : Option Int) (r : Run α) : Run α :=
  ⟨r.outcome, r.events.filter (·.isHeard verbosity)⟩

/-- A compilation without the messages that are not shown. -/
def Compilation.heard (verbosity : Option Int) (c : Compilation) : Compilation :=
  { c with events := c.events.filter (·.isHeard verbosity) }

namespace Log

lemma Entry.isShown_of_le {v w : Option Int} (h : v ≤ w) {e : Entry} (he : e.isShown v = true) :
    e.isShown w = true := by
  cases v with
  | none => simp [isShown] at he
  | some v =>
    cases w with
    | none => exact absurd h (by simp)
    | some w =>
      simp only [isShown, Option.any_some, decide_eq_true_eq] at he ⊢
      exact Int.le_trans he (Option.some_le_some.1 h)

/-- What a lower verbosity shows can be chosen from what a higher one does. -/
lemma filter_isShown_of_le {v w : Option Int} (h : v ≤ w) (entries : List Entry) :
    (entries.filter (·.isShown w)).filter (·.isShown v) = entries.filter (·.isShown v) := by
  rw [List.filter_filter]
  refine List.filter_congr fun e _ => ?_
  cases he : e.isShown v with
  | true => simp [Entry.isShown_of_le h he]
  | false => rfl

end Log

namespace Event

variable {verbosity : Option Int}

lemma filter_isHeard_noted (note : Note) :
    [noted note].filter (·.isHeard verbosity) = note.told verbosity := by
  cases h : note.entry.isShown verbosity <;> simp [isHeard, entry?, Note.told, h]

lemma isHeard_of_isCall {e : Event} (h : e.isCall = true) : e.isHeard verbosity = true := by
  cases e with
  | probed | refused | read => rfl
  | noted | said => simp [isCall] at h

/-- All calls of the store are heard. -/
lemma filter_isCall_filter_isHeard (events : List Event) :
    (events.filter (·.isHeard verbosity)).filter isCall = events.filter isCall := by
  rw [List.filter_filter]
  refine List.filter_congr fun e _ => ?_
  cases h : e.isCall with
  | true => simp [isHeard_of_isCall h]
  | false => rfl

/-- The messages that are heard are the ones that are shown. -/
lemma entries_filter_isHeard (events : List Event) :
    entries (events.filter (·.isHeard verbosity))
      = (entries events).filter (·.isShown verbosity) := by
  rw [entries, entries, List.filterMap_filter, List.filter_filterMap]
  refine congrArg (List.filterMap · events) (funext fun e => ?_)
  cases h : e.entry? with
  | none => simp [isHeard, h]
  | some entry => simp [isHeard, h, Option.filter]

end Event

namespace Run

variable {α β : Type} {verbosity : Option Int}

lemma heard_of_calls {r : Run α} (h : ∀ e ∈ r.events, e.isCall = true) :
    r.heard verbosity = r := by
  cases r with
  | mk outcome events =>
    rw [heard, List.filter_eq_self.2 fun e he => Event.isHeard_of_isCall (h e he)]

lemma heard_pure (a : α) : (pure a : Run α).heard verbosity = pure a := rfl

lemma heard_emit_noted (note : Note) :
    (emit (.noted note)).heard verbosity = tell verbosity note := by
  rw [emit, heard, Event.filter_isHeard_noted, tell]

/-- Hearing one step after another is hearing both of them. -/
lemma heard_bind (r : Run α) (f : α → Run β) :
    (r >>= f).heard verbosity = r.heard verbosity >>= fun a => (f a).heard verbosity := by
  cases hr : r.outcome with
  | ok a =>
    have hheard : (r.heard verbosity).outcome = .ok a := hr
    rw [bind_of_ok hr, bind_of_ok hheard, heard, List.filter_append]
    rfl
  | error e =>
    have hheard : (r.heard verbosity).outcome = .error e := hr
    rw [bind_of_error hr, bind_of_error hheard]
    rfl

lemma heard_forEach (f : α → Run β) (as : List α) :
    (forEach f as).heard verbosity = forEach (fun a => (f a).heard verbosity) as := by
  induction as with
  | nil => rfl
  | cons a rest ih => simp only [forEach_cons, heard_bind, ih, heard_pure]

end Run

namespace Include

/-- The search for a file makes no notes. -/
lemma isCall_of_mem_firstExisting {store : Store} {paths : List Path} {e : Event}
    (h : e ∈ (firstExisting store paths).events) : e.isCall = true := by
  induction paths with
  | nil => simp [firstExisting, Run.ok] at h
  | cons p rest ih =>
    rw [firstExisting] at h
    split at h
    · rw [List.mem_singleton.1 h]
      rfl
    · rw [List.mem_singleton.1 h]
      rfl
    · rcases List.mem_cons.1 h with rfl | h
      · rfl
      · exact ih h

end Include

/-! ### Asking at every note -/

namespace Followed

open Compile

variable (verbosity : Option Int) (ctx : Context) (nested : Document → Scope → Run Text)
  (d : Document)

/-- The file that a spec stands for in a document. -/
def resolve (spec : Text) : Run Path := do
  match ← Include.firstExisting ctx.store
      (Include.candidates ctx.settings ctx.cwd d spec) with
  | none => .fail (.ofProblem (.includeNotFound spec))
  | some path =>
    if (d.ancestors ctx.cwd).contains path then
      .fail (.ofProblem
        (.recursiveInclude (d.relative ctx.cwd d.file) (d.relative ctx.cwd path)))
    else do
      Run.tell verbosity (.resolved spec path)
      return path

/-- What an included file leaves. -/
def load (scope : Scope) (base64 : Bool) (path : Path) : Run Text := do
  let bytes ← readFile ctx.store path
  if base64 then return Base64.encode bytes
  else
    let text ← decode ctx bytes
    if ctx.settings.isTemplate path then
      Run.tell verbosity (.including (d.relative ctx.cwd path))
      nested (child ctx d path text) scope
    else return text

/-- What an include directive leaves. -/
def inclusion (scope : Scope) (specs : List Text) (base64 : Bool) : Run Text :=
  if specs.isEmpty || specs.any List.isEmpty then .fail (.ofProblem (.includeNotFound []))
  else do
    let paths ← Run.forEach (resolve verbosity ctx d) specs
    let texts ← Run.forEach (load verbosity ctx nested d scope base64) paths
    return List.intercalate ['\n'] texts

/-- What a directive leaves and does to the scope.  Only an include makes notes. -/
def directive (scope : Scope) : Directive → Compilation
  | .inclusion specs base64 =>
    .ofRun scope (inclusion verbosity ctx nested d scope specs base64)
  | other => Compile.directive ctx nested d scope other

/-- Executes the directive of a block. -/
def execute (scope : Scope) (b : Block) : Compilation :=
  let c := directive verbosity ctx nested d scope b.directive
  { c with events := (Note.executing b.directive b.start).told verbosity ++ c.events }

/-- What a block leaves. -/
def block (scope : Scope) (b : Block) : Compilation :=
  if b.isSpecial then
    let c := execute verbosity ctx nested d scope b
    { c with outcome := c.outcome.mapError (·.leaving (siteOf d b.start)) }
  else ⟨.ok b.data, scope, []⟩

/-- Compiles blocks in order, given the block before them. -/
def blocks : Option Block → List Block → Scope → Compilation
  | _, [], scope => ⟨.ok [], scope, []⟩
  | previous, b :: rest, scope =>
    if collapses previous b rest.head? then blocks (some b) rest scope
    else
      let first := block verbosity ctx nested d scope b
      match first.outcome with
      | .error _ => first
      | .ok text =>
        let later := blocks (some b) rest first.scope
        ⟨later.outcome.map (text ++ ·), later.scope, first.events ++ later.events⟩

/-- Compiles a document, given how its includes are compiled. -/
def documentWith (scope : Scope) : Compilation :=
  match Block.scan d.text with
  | .error offset => ⟨.error (.diagnosed (unterminated d offset)), scope, []⟩
  | .ok bs =>
    let body := blocks verbosity ctx nested d none bs scope
    let closing := match body.outcome with
      | .ok _ => (Note.compiled d.file bs.length).told verbosity
      | .error _ => []
    { body with
      events := (Note.scanned d.file bs.length).told verbosity ++ (body.events ++ closing) }

/-- Compiles a document in which includes are nested at most to a given depth. -/
def within : Nat → Document → Scope → Compilation
  | 0, _, scope => ⟨.error .tooDeep, scope, []⟩
  | depth + 1, d, scope =>
    documentWith verbosity ctx (fun d' scope' => (within depth d' scope').toRun) d scope

/-- Compiles a document. -/
def document (scope : Scope) : Compilation :=
  within verbosity ctx (depthBound ctx.store + 1) d scope

/-! ### Hearing at the end -/

variable {verbosity ctx nested d} {scope : Scope}

lemma resolve_eq (spec : Text) :
    resolve verbosity ctx d spec = (Include.resolve ctx d spec).heard verbosity := by
  unfold resolve Include.resolve
  rw [Run.heard_bind, Run.heard_of_calls fun e he => Include.isCall_of_mem_firstExisting he]
  refine congrArg _ (funext fun found => ?_)
  cases found with
  | none => rfl
  | some path =>
    simp only [List.contains_iff_mem]
    split
    · rfl
    · rw [Run.heard_bind, Run.heard_emit_noted]
      rfl

lemma load_eq (base64 : Bool) (path : Path) :
    load verbosity ctx (fun d' s' => (nested d' s').heard verbosity) d scope base64 path
      = (Compile.load ctx nested d scope base64 path).heard verbosity := by
  have hread : (readFile ctx.store path).heard verbosity = readFile ctx.store path := by
    refine Run.heard_of_calls fun e he => ?_
    unfold readFile at he
    split at he <;> exact List.mem_singleton.1 he ▸ rfl
  have hdecode : ∀ bytes, (decode ctx bytes).heard verbosity
      = decode ctx bytes := by
    refine fun bytes => Run.heard_of_calls fun e he => ?_
    simp [decode_events] at he
  unfold load Compile.load
  rw [Run.heard_bind, hread]
  refine congrArg _ (funext fun bytes => ?_)
  cases base64 with
  | true => rfl
  | false =>
    simp only [Bool.false_eq_true, if_false]
    rw [Run.heard_bind, hdecode]
    refine congrArg _ (funext fun text => ?_)
    split
    · rw [Run.heard_bind, Run.heard_emit_noted]
    · rfl

lemma inclusion_eq (specs : List Text) (base64 : Bool) :
    inclusion verbosity ctx (fun d' s' => (nested d' s').heard verbosity) d scope specs base64
      = (Compile.inclusion ctx nested d scope specs base64).heard verbosity := by
  unfold inclusion Compile.inclusion
  split
  · rfl
  · have hresolve : resolve verbosity ctx d
        = fun spec => (Include.resolve ctx d spec).heard verbosity := funext resolve_eq
    simp only [hresolve, funext (load_eq base64), Run.heard_bind, Run.heard_forEach,
      Run.heard_pure]

lemma directive_eq (action : Directive) :
    directive verbosity ctx (fun d' s' => (nested d' s').heard verbosity) d scope action
      = (Compile.directive ctx nested d scope action).heard verbosity := by
  cases action with
  | inclusion specs base64 =>
    rw [directive, inclusion_eq]
    rfl
  | compilation => rfl
  | definition name value => rfl
  | reference name optional =>
    simp only [directive, Compile.directive]
    split <;> rfl

lemma execute_eq (b : Block) :
    execute verbosity ctx (fun d' s' => (nested d' s').heard verbosity) d scope b
      = (Compile.execute ctx nested d scope b).heard verbosity := by
  simp only [execute, Compile.execute, directive_eq, Compilation.heard,
    ← Event.filter_isHeard_noted, ← List.filter_append]
  rfl

lemma block_eq (b : Block) :
    block verbosity ctx (fun d' s' => (nested d' s').heard verbosity) d scope b
      = (Compile.block ctx nested d scope b).heard verbosity := by
  unfold block Compile.block
  split
  · rw [execute_eq]
    rfl
  · rfl

lemma blocks_eq (previous : Option Block) (bs : List Block) (scope : Scope) :
    blocks verbosity ctx (fun d' s' => (nested d' s').heard verbosity) d previous bs scope
      = (Compile.blocks ctx nested d previous bs scope).heard verbosity := by
  induction bs generalizing previous scope with
  | nil => rfl
  | cons b rest ih =>
    rw [blocks, Compile.blocks]
    split
    · exact ih _ _
    · have houtcome : ((Compile.block ctx nested d scope b).heard verbosity).outcome
          = (Compile.block ctx nested d scope b).outcome := rfl
      simp only [block_eq, houtcome, ih]
      cases (Compile.block ctx nested d scope b).outcome with
      | error f => rfl
      | ok text => simp only [Compilation.heard, List.filter_append]

lemma documentWith_eq (scope : Scope) :
    documentWith verbosity ctx (fun d' s' => (nested d' s').heard verbosity) d scope
      = (Compile.documentWith ctx nested d scope).heard verbosity := by
  unfold documentWith Compile.documentWith
  cases Block.scan d.text with
  | error offset => rfl
  | ok bs =>
    have houtcome : ((Compile.blocks ctx nested d none bs scope).heard verbosity).outcome
        = (Compile.blocks ctx nested d none bs scope).outcome := rfl
    simp only [blocks_eq, houtcome]
    cases (Compile.blocks ctx nested d none bs scope).outcome with
    | error f | ok text =>
      simp [Compilation.heard, ← Event.filter_isHeard_noted, ← List.filter_append]

/-- To whatever depth documents are included, asking at every note is hearing at the end. -/
theorem within_eq (depth : Nat) (d : Document) (scope : Scope) :
    within verbosity ctx depth d scope = (Compile.within ctx depth d scope).heard verbosity := by
  induction depth generalizing d scope with
  | zero => rfl
  | succ depth ih =>
    have hnested : (fun d' s' => (within verbosity ctx depth d' s').toRun)
        = fun d' s' => (Compile.within ctx depth d' s').toRun.heard verbosity := by
      funext d' s'
      rw [ih]
      rfl
    rw [within, hnested, documentWith_eq]
    rfl

theorem document_eq (verbosity : Option Int) (ctx : Context) (d : Document) (scope : Scope) :
    document verbosity ctx d scope = (Compile.document ctx d scope).heard verbosity :=
  within_eq _ d scope

lemma calls_document (verbosity : Option Int) (ctx : Context) (d : Document) (scope : Scope) :
    (document verbosity ctx d scope).events.filter Event.isCall
      = (Compile.document ctx d scope).events.filter Event.isCall := by
  rw [document_eq]
  exact Event.filter_isCall_filter_isHeard _

lemma entries_document (verbosity : Option Int) (ctx : Context) (d : Document) (scope : Scope) :
    Event.entries (document verbosity ctx d scope).events
      = (Event.entries (Compile.document ctx d scope).events).filter (·.isShown verbosity) := by
  rw [document_eq]
  exact Event.entries_filter_isHeard _

end Followed

end CommentMarkup
