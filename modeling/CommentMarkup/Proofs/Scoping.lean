/-
# The variables of a document

Wherever the compilation of a document has come to, the variables are the ones it began with,
changed by the definitions of this document that stand before, in their order
(`scope_of_reaches`).  Included documents have no part in it: each of them begins with the
variables at its include, and what it defines ends with it.  So a reference yields the last
definition of its name further up in its own document, or else what the document began with
(`scope_before_block`).
-/
import CommentMarkup.Proofs.Nesting
import CommentMarkup.Proofs.Scan
import Mathlib.Data.List.Induction

namespace CommentMarkup

/-! ### Definitions in order -/

/-- The name and the value of a definition. -/
def Directive.definition? : Directive → Option (Text × Text)
  | .definition name value => some (name, value)
  | _ => none

/-- The name and the value that a block defines. -/
def Block.definition? (b : Block) : Option (Text × Text) :=
  if b.isSpecial then b.directive.definition? else none

/-- The names and values that some blocks define, in order. -/
def Block.definitions (bs : List Block) : List (Text × Text) := bs.filterMap Block.definition?

/-- The value that a name gets by the last of some definitions that is one of this name. -/
def lastValue? (nilSentinel : Text) (definitions : List (Text × Text)) (name : Text) :
    Option Text :=
  (definitions.reverse.lookup name).map fun value => if value = nilSentinel then [] else value

/-- A scope that is changed by some definitions in order. -/
def Scope.defineAll (s : Scope) (nilSentinel : Text) (definitions : List (Text × Text)) : Scope :=
  definitions.foldl (fun s e => s.define nilSentinel e.1 e.2) s

/-- What a name stands for after some definitions: the last one that is its own, or else what
it stood for before. -/
def Scope.seen? (s : Scope) (nilSentinel : Text) (definitions : List (Text × Text))
    (name : Text) : Option Text :=
  (lastValue? nilSentinel definitions name).or (s.find? name)

lemma Scope.defineAll_append (s : Scope) (nilSentinel : Text) (first later : List (Text × Text)) :
    s.defineAll nilSentinel (first ++ later)
      = (s.defineAll nilSentinel first).defineAll nilSentinel later :=
  List.foldl_append

theorem Scope.find?_defineAll (s : Scope) (nilSentinel : Text) (definitions : List (Text × Text))
    (name : Text) :
    (s.defineAll nilSentinel definitions).find? name = s.seen? nilSentinel definitions name := by
  induction definitions using List.reverseRecOn with
  | nil => rfl
  | append_singleton earlier e ih =>
    obtain ⟨n, value⟩ := e
    have hlast : (s.defineAll nilSentinel (earlier ++ [(n, value)])).find? name
        = ((s.defineAll nilSentinel earlier).define nilSentinel n value).find? name := by
      rw [defineAll_append]
      rfl
    rw [hlast, define, find?_put, ih]
    by_cases hname : name = n
    · simp [seen?, lastValue?, hname]
    · simp [seen?, lastValue?, hname, List.lookup_cons, beq_eq_false_iff_ne.2 hname]

lemma Block.definition?_of_isSpecial {b : Block} (h : b.isSpecial = true) :
    b.definition? = b.directive.definition? := by
  simp [definition?, h]

lemma Block.definition?_of_not_isSpecial {b : Block} (h : b.isSpecial = false) :
    b.definition? = none := by
  simp [definition?, h]

/-- A directive is not made of blanks. -/
lemma Block.not_allBlank_of_isSpecial {b : Block} (h : b.isSpecial = true) :
    Text.allBlank b.data = false := by
  obtain ⟨rest, hdata⟩ := List.isPrefixOf_iff_prefix.1 (isComment_of_isSpecial h)
  have hblank : isBlank '<' = false := by decide
  simp [Text.allBlank, ← hdata, commentOpening, hblank]

namespace Compile

variable {ctx : Context} {nested : Document → Scope → Run Text} {d : Document}
  {scope scope' : Scope} {b : Block} {f : Failure} {previous next : Option Block}

/-! ### One block -/

/-- Only blocks that are no directives are left out. -/
lemma not_collapses_of_isSpecial (h : b.isSpecial = true) : collapses previous b next = false := by
  simp [collapses, Block.not_allBlank_of_isSpecial h]

/-- A directive changes the scope by its definition, and not at all if it is none. -/
lemma directive_scope (action : Directive) :
    (directive ctx nested d scope action).scope
      = scope.defineAll ctx.settings.nilSentinel action.definition?.toList := by
  cases action with
  | definition name value => rfl
  | inclusion specs base64 => rfl
  | compilation => rfl
  | reference name optional =>
    simp only [directive]
    split <;> rfl

/-- A definition never fails. -/
lemma definition?_of_directive_eq_error {action : Directive}
    (h : (directive ctx nested d scope action).outcome = .error f) :
    action.definition? = none := by
  cases action with
  | definition name value => simp [directive] at h
  | inclusion specs base64 => rfl
  | compilation => rfl
  | reference name optional => rfl

lemma block_scope :
    (block ctx nested d scope b).scope
      = scope.defineAll ctx.settings.nilSentinel b.definition?.toList := by
  cases hb : b.isSpecial with
  | false =>
    rw [block_of_not_isSpecial hb, Block.definition?_of_not_isSpecial hb]
    rfl
  | true =>
    rw [block_of_isSpecial hb, Block.definition?_of_isSpecial hb]
    exact directive_scope b.directive

/-- A block that defines nothing leaves the scope as it is. -/
lemma block_scope_of_definition?_eq_none (h : b.definition? = none) :
    (block ctx nested d scope b).scope = scope := by
  rw [block_scope, h]
  rfl

lemma block_scope_of_error (h : (block ctx nested d scope b).outcome = .error f) :
    (block ctx nested d scope b).scope = scope := by
  obtain ⟨hspecial, f₀, hf₀, -⟩ := block_eq_error_iff.1 h
  refine block_scope_of_definition?_eq_none ?_
  rw [Block.definition?_of_isSpecial hspecial]
  exact definition?_of_directive_eq_error hf₀

/-- A reference leaves the value of its name in the scope, and fails if there is none and it
is not optional. -/
lemma block_outcome_of_reference (hspecial : b.isSpecial = true) {name : Text} {optional : Bool}
    (hdirective : b.directive = .reference name optional) :
    (block ctx nested d scope b).outcome = match scope.find? name with
      | some value => .ok value
      | none =>
        if optional then .ok []
        else .error (.diagnosed
          ((Diagnostic.ofProblem (.undefinedVariable name)).locate (siteOf d b.start))) := by
  rw [block_of_isSpecial hspecial]
  simp only [execute_outcome, hdirective, directive, Scope.resolve]
  cases scope.find? name with
  | some value => rfl
  | none => cases optional <;> rfl

/-! ### Many blocks -/

/-- On the way from one place to a later one the scope is changed by the definitions between
them, and by nothing else. -/
theorem scope_of_reaches {c c' : Cursor} {text : Text} {events : List Event}
    (h : Reaches ctx nested d c text events c') :
    ∃ before, c.rest = before ++ c'.rest ∧
      c'.scope = c.scope.defineAll ctx.settings.nilSentinel
        (Block.definitions before) := by
  induction h with
  | here c => exact ⟨[], rfl, rfl⟩
  | @skip previous b rest scope text events c hout _ ih =>
    obtain ⟨before, hbefore, hscope⟩ := ih
    have hb : b.isSpecial = false := by
      cases hb : b.isSpecial with
      | false => rfl
      | true => simp [not_collapses_of_isSpecial hb] at hout
    refine ⟨b :: before, congrArg (b :: ·) hbefore, ?_⟩
    rw [Block.definitions, List.filterMap_cons_none (Block.definition?_of_not_isSpecial hb)]
    exact hscope
  | @keep previous b rest scope left text events c hin hleft _ ih =>
    obtain ⟨before, hbefore, hscope⟩ := ih
    refine ⟨b :: before, congrArg (b :: ·) hbefore, ?_⟩
    have hcons : Block.definitions (b :: before)
        = b.definition?.toList ++ Block.definitions before := by
      cases hb : b.definition? <;> simp [Block.definitions, hb]
    rw [hcons, Scope.defineAll_append, ← block_scope]
    exact hscope

/-- The same for a place whose blocks before it are known. -/
lemma scope_eq_of_reaches {c c' : Cursor} {before : List Block} {text : Text}
    {events : List Event} (h : Reaches ctx nested d c text events c')
    (hrest : c.rest = before ++ c'.rest) :
    c'.scope = c.scope.defineAll ctx.settings.nilSentinel
      (Block.definitions before) := by
  obtain ⟨before', hbefore', hscope⟩ := scope_of_reaches h
  rw [List.append_cancel_right (hrest.symm.trans hbefore')]
  exact hscope

/-- A reference that is reached leaves its value behind what has been left before it. -/
lemma reaches_of_reference {after : List Block} {name value text : Text} {optional : Bool}
    {events : List Event} {c : Cursor}
    (hreach : Reaches ctx nested d c text events ⟨previous, b :: after, scope⟩)
    (hspecial : b.isSpecial = true) (hdirective : b.directive = .reference name optional)
    (hvalue : (block ctx nested d scope b).outcome = .ok value) :
    ∃ later, Reaches ctx nested d c (text ++ value) (events ++ later) ⟨some b, after, scope⟩ := by
  have hscope : (block ctx nested d scope b).scope = scope := by
    refine block_scope_of_definition?_eq_none ?_
    rw [Block.definition?_of_isSpecial hspecial, hdirective]
    rfl
  have hkeep : Reaches ctx nested d ⟨previous, b :: after, scope⟩ (value ++ [])
      ((block ctx nested d scope b).events ++ []) ⟨some b, after, scope⟩ := by
    refine .keep (not_collapses_of_isSpecial hspecial) hvalue ?_
    rw [hscope]
    exact .here _
  refine ⟨(block ctx nested d scope b).events, ?_⟩
  simpa using hreach.trans hkeep

/-- A compilation that fails at a directive leaves the scope as it was before it. -/
lemma exists_reaches_of_error {bs : List Block} (hscan : Block.scan d.text = .ok bs)
    (h : (documentWith ctx nested d scope).outcome = .error f) :
    ∃ text events previous b rest scope',
      Reaches ctx nested d ⟨none, bs, scope⟩ text events ⟨previous, b :: rest, scope'⟩ ∧
        (block ctx nested d scope' b).outcome = .error f ∧
        (documentWith ctx nested d scope).scope = scope' := by
  rw [(documentWith_of_scan_ok hscan).1] at h
  obtain ⟨text, events, previous, b, rest, scope', hreach, hin, hf⟩ := blocks_eq_error_iff.1 h
  refine ⟨text, events, previous, b, rest, scope', hreach, hf, ?_⟩
  rw [(documentWith_of_scan_ok hscan).2, compile_of_reaches hreach, compile_stop hin hf]
  exact block_scope_of_error hf

/-- An included document begins with the variables at its include. -/
lemma Opens.scope_eq {depth : Nat} {initial : Scope} {bs : List Block} {c' : Call}
    (hscan : Block.scan d.text = .ok bs) (h : Opens ctx ⟨depth + 1, d, initial⟩ b c') :
    ∃ before after, bs = before ++ b :: after ∧
      c'.scope = initial.defineAll ctx.settings.nilSentinel
        (Block.definitions before) := by
  obtain ⟨hexec, -, -, -, -, -, -, -⟩ := h
  obtain ⟨-, bs', text, events, previous, after, hscan', hreach, -⟩ := hexec
  obtain rfl := Except.ok.inj (hscan.symm.trans hscan')
  obtain ⟨before, hbefore, hscope⟩ := scope_of_reaches hreach
  exact ⟨before, after, hbefore, hscope⟩

/-! ### References -/

/-- The variables of a document, at whatever depth it is compiled and whatever it includes.

Where the compilation reaches a block, they are the initial ones changed by the definitions of
the document before that block.  A reference there leaves the value of the last of these
definitions that has its name, or else the initial value, or else nothing if it is optional;
otherwise the compilation fails at its place.  The value stands in what the document is compiled to,
behind all that has been left before.  A compilation that fails at a block ends with
the variables before that block, and a document that it opens begins with the variables before
the include. -/
theorem scope_before_block (ctx : Context) (depth : Nat) (d : Document) (initial : Scope)
    (bs : List Block) (hscan : Block.scan d.text = .ok bs) :
    (∀ before b after text events previous scope, bs = before ++ b :: after →
      Reaches ctx (nestedWithin ctx depth) d ⟨none, bs, initial⟩ text events
          ⟨previous, b :: after, scope⟩ →
        scope = initial.defineAll ctx.settings.nilSentinel (Block.definitions before) ∧
          ∀ name optional, b.isSpecial = true → b.directive = .reference name optional →
            (∀ value,
              initial.seen? ctx.settings.nilSentinel (Block.definitions before) name = some value →
              (∃ later, Reaches ctx (nestedWithin ctx depth) d ⟨none, bs, initial⟩
                (text ++ value) (events ++ later) ⟨some b, after, scope⟩) ∧
              ∀ compiled, (within ctx (depth + 1) d initial).outcome = .ok compiled →
                text ++ value <+: compiled) ∧
            (initial.seen? ctx.settings.nilSentinel (Block.definitions before) name = none →
              if optional then
                ∃ later, Reaches ctx (nestedWithin ctx depth) d ⟨none, bs, initial⟩
                  text (events ++ later) ⟨some b, after, scope⟩
              else (within ctx (depth + 1) d initial).outcome = .error (.diagnosed
                ((Diagnostic.ofProblem (.undefinedVariable name)).locate
                  (siteOf d b.start))))) ∧
      (∀ f, (within ctx (depth + 1) d initial).outcome = .error f →
        ∃ before b after text events previous, bs = before ++ b :: after ∧
          Reaches ctx (nestedWithin ctx depth) d ⟨none, bs, initial⟩ text events
            ⟨previous, b :: after, (within ctx (depth + 1) d initial).scope⟩ ∧
          (block ctx (nestedWithin ctx depth) d (within ctx (depth + 1) d initial).scope
            b).outcome = .error f ∧
          (within ctx (depth + 1) d initial).scope
            = initial.defineAll ctx.settings.nilSentinel (Block.definitions before)) ∧
      ∀ b c, Opens ctx ⟨depth + 1, d, initial⟩ b c →
        ∃ before after, bs = before ++ b :: after ∧
          c.scope = initial.defineAll ctx.settings.nilSentinel (Block.definitions before) := by
  refine ⟨?_, ?_, fun b c hopens => hopens.scope_eq hscan⟩
  · intro before b after text events previous scope hbs hreach
    have hscope : scope
        = initial.defineAll ctx.settings.nilSentinel (Block.definitions before) :=
      scope_eq_of_reaches hreach hbs
    refine ⟨hscope, fun name optional hspecial hdirective => ?_⟩
    have hfind : scope.find? name
        = initial.seen? ctx.settings.nilSentinel (Block.definitions before) name := by
      rw [hscope, Scope.find?_defineAll]
    have houtcome : (block ctx (nestedWithin ctx depth) d scope b).outcome = _ :=
      block_outcome_of_reference hspecial hdirective
    rw [hfind] at houtcome
    constructor
    · intro value hseen
      rw [hseen] at houtcome
      obtain ⟨later, hpast⟩ := reaches_of_reference hreach hspecial hdirective houtcome
      exact ⟨⟨later, hpast⟩, fun compiled hok => hpast.prefix_of_ok hscan hok⟩
    · intro hseen
      rw [hseen] at houtcome
      cases optional with
      | true => simpa using reaches_of_reference hreach hspecial hdirective houtcome
      | false =>
        refine (documentWith_of_scan_ok hscan).1.trans (blocks_eq_error_iff.2 ?_)
        exact ⟨_, _, _, _, _, _, hreach, not_collapses_of_isSpecial hspecial, houtcome⟩
  · intro f hf
    obtain ⟨text, events, previous, b, after, scope, hreach, hblock, hscope⟩ :=
      exists_reaches_of_error hscan hf
    have hend : (within ctx (depth + 1) d initial).scope = scope := hscope
    obtain ⟨before, hbefore, hdefined⟩ := scope_of_reaches hreach
    rw [hend]
    exact ⟨before, b, after, text, events, previous, hbefore, hreach, hblock, hdefined⟩

/-- A definition, an include of a file that defines the same name, and a reference. -/
theorem scope_before_block_of_redefinition :
    let m : MemoryStore :=
      ⟨[("/site/b.kit".toList, Encoding.utf8Bytes "<!--$a=2-->".toList)], []⟩
    let ctx : Context := ⟨m.toStore, {}, "/site".toList, Codec.builtIn⟩
    let d : Document :=
      { text := "<!--$a=1--><!--@include b--><!--$a-->".toList, file := "/site/a.kit".toList
        rootDir := "/site".toList, parents := [] }
    let before : List Block :=
      [⟨0, "<!--$a=1-->".toList⟩, ⟨11, "<!--@include b-->".toList⟩]
    let reference : Block := ⟨28, "<!--$a-->".toList⟩
    let initial : Scope := .ofList [("a".toList, "0".toList)]
    Block.scan d.text = .ok (before ++ [reference]) ∧
      ∃ scope events later,
        scope = initial.defineAll "nil".toList [("a".toList, "1".toList)] ∧
        Reaches ctx (nestedWithin ctx 1) d ⟨none, before ++ [reference], initial⟩
          "1".toList (events ++ later) ⟨some reference, [], scope⟩ ∧
        ∀ compiled, (within ctx 2 d initial).outcome = .ok compiled → "1".toList <+: compiled := by
  intro m ctx d before reference initial
  have hscan : Block.scan d.text = .ok (before ++ [reference]) := by decide +kernel
  have hreach : ∃ events scope,
      Reaches ctx (nestedWithin ctx 1) d ⟨none, before ++ [reference], initial⟩ ([] ++ ([] ++ []))
        events ⟨some ⟨11, "<!--@include b-->".toList⟩, [reference], scope⟩ :=
    ⟨_, _, .keep (by decide) (by decide +kernel) (.keep (by decide) (by decide +kernel) (.here _))⟩
  obtain ⟨events, scope, hreach⟩ := hreach
  obtain ⟨hscope, hreference⟩ := (scope_before_block ctx 1 d initial _ hscan).1 before reference []
    _ events _ scope rfl hreach
  obtain ⟨hseen, -⟩ := hreference "a".toList false (by decide) (by decide)
  obtain ⟨⟨later, hlater⟩, hprefix⟩ := hseen "1".toList (by decide)
  exact ⟨hscan, scope, events, later, hscope, hlater, hprefix⟩

end Compile

end CommentMarkup
