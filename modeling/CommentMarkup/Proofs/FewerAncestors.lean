/-
# Documents with fewer ancestors

The documents further up can do one thing to a compilation: an include of one of them is
refused.  So of two documents that are the same but for what is further up, the one that has
all ancestors of the other is compiled to the same, with the same events, unless it ends with
such an include (`within_stricter`).

An included template has all ancestors of the file that it comes from.  What it leaves is
therefore what that file leaves when it is compiled by itself, with the variables at the
include and the root directory of the including document (`file_eq_ok_of_load`).  The two
together are `document_of_fewer_ancestors`.
-/
import CommentMarkup.Proofs.Lockstep
import CommentMarkup.Proofs.Scoping
import Mathlib.Data.List.Nodup

namespace CommentMarkup

/-! ### Recursive includes -/

/-- An include of a document that is being compiled further up, from however far inside. -/
def Failure.IsRecursive (f : Failure) : Prop :=
  ∃ (diagnostic : Diagnostic) (including ancestor : Text), f = .diagnosed diagnostic ∧
    diagnostic.report.problem = .recursiveInclude including ancestor

lemma Failure.IsRecursive.leaving {f : Failure} (h : f.IsRecursive) (site : Site) :
    (f.leaving site).IsRecursive := by
  obtain ⟨diagnostic, including, ancestor, rfl, hproblem⟩ := h
  obtain ⟨left, hleft, -, hsame⟩ := Compile.leaving_diagnosed diagnostic site
  exact ⟨left, including, ancestor, hleft, hsame.trans hproblem⟩

/-! ### Stricter runs -/

/-- A run that is the same as another one, unless it ends with a recursive include. -/
def Run.Stricter {α : Type} (r r' : Run α) : Prop :=
  r = r' ∨ ∃ f, r.outcome = .error f ∧ f.IsRecursive

/-- A compilation that is the same as another one, unless it ends with a recursive include. -/
def Compilation.Stricter (c c' : Compilation) : Prop :=
  c = c' ∨ ∃ f, c.outcome = .error f ∧ f.IsRecursive

namespace Run

variable {α β : Type} {r r' : Run α} {f g : α → Run β}

lemma Stricter.refl (r : Run α) : r.Stricter r := Or.inl rfl

lemma Stricter.bind (h : r.Stricter r') (hfg : ∀ a, (f a).Stricter (g a)) :
    (r >>= f).Stricter (r' >>= g) := by
  rcases h with rfl | ⟨e, he, hrecursive⟩
  · cases hr : r.outcome with
    | error e =>
      -- both fail before the second step, and alike
      rw [bind_of_error hr, bind_of_error hr]
      exact .refl _
    | ok a =>
      rw [bind_of_ok hr, bind_of_ok hr]
      rcases hfg a with hsame | ⟨e, he, hrecursive⟩
      · rw [hsame]
        exact .refl _
      · exact Or.inr ⟨e, he, hrecursive⟩
  · exact Or.inr ⟨e, bind_eq_error_iff.2 (Or.inl he), hrecursive⟩

lemma Stricter.inStep (h : r.Stricter r') : r.InStep Eq Failure.IsRecursive r' := by
  rcases h with rfl | hrecursive
  · exact .refl _ r
  · exact Or.inr hrecursive

end Run

namespace Compilation

variable {c c' : Compilation}

/-- If the stricter compilation succeeds, it is the other one. -/
lemma Stricter.eq_of_ok (h : c.Stricter c') {text : Text} (hc : c.outcome = .ok text) :
    c' = c := by
  rcases h with rfl | ⟨f, hf, -⟩
  · rfl
  · simp [hf] at hc

end Compilation

/-! ### Scopes and their entries -/

namespace Scope

/-- Every name stands once in the scope. -/
def NamesOnce (s : Scope) : Prop := (s.entries.map Prod.fst).Nodup

variable {s : Scope} {name value : Text} {entries : List (Text × Text)}

/-- A name that is new stands at the end. -/
lemma putEntry_of_not_mem (h : name ∉ entries.map Prod.fst) :
    putEntry name value entries = entries ++ [(name, value)] := by
  induction entries with
  | nil => rfl
  | cons e rest ih =>
    rw [List.map_cons, List.mem_cons, not_or] at h
    rw [putEntry, if_neg h.1, ih h.2, List.cons_append]

/-- A name that is not new stands where it stood. -/
lemma names_putEntry_of_mem (h : name ∈ entries.map Prod.fst) :
    (putEntry name value entries).map Prod.fst = entries.map Prod.fst := by
  induction entries with
  | nil => simp at h
  | cons e rest ih =>
    by_cases hname : name = e.1
    · rw [putEntry, if_pos hname]
      rfl
    · rw [putEntry, if_neg hname, List.map_cons, List.map_cons,
        ih ((List.mem_cons.1 h).resolve_left hname)]

lemma NamesOnce.put (h : s.NamesOnce) (name value : Text) : (s.put name value).NamesOnce := by
  unfold NamesOnce Scope.put
  by_cases hmem : name ∈ s.entries.map Prod.fst
  · rw [names_putEntry_of_mem hmem]
    exact h
  · rw [putEntry_of_not_mem hmem, List.map_append, List.map_singleton, ← List.concat_eq_append]
    exact (List.nodup_concat _ _).2 ⟨hmem, h⟩

lemma namesOnce_ofList (entries : List (Text × Text)) : (ofList entries).NamesOnce := by
  induction entries using List.reverseRecOn with
  | nil => exact List.nodup_nil
  | append_singleton earlier e ih =>
    rw [ofList, List.foldl_append]
    exact ih.put e.1 e.2

lemma NamesOnce.defineAll (h : s.NamesOnce) (nilSentinel : Text)
    (definitions : List (Text × Text)) : (s.defineAll nilSentinel definitions).NamesOnce := by
  induction definitions using List.reverseRecOn with
  | nil => exact h
  | append_singleton earlier e ih =>
    rw [defineAll_append]
    exact ih.put e.1 _

/-- A scope is made again from its entries. -/
theorem ofList_entries (h : s.NamesOnce) : ofList s.entries = s := by
  obtain ⟨entries⟩ := s
  induction entries using List.reverseRecOn with
  | nil => rfl
  | append_singleton earlier e ih =>
    have hnames : ((earlier.map Prod.fst).concat e.1).Nodup := by simpa [NamesOnce] using h
    obtain ⟨hnew, hearlier⟩ := (List.nodup_concat _ _).1 hnames
    have hlast : ofList (earlier ++ [e]) = (ofList earlier).put e.1 e.2 := by
      rw [ofList, List.foldl_append]
      rfl
    rw [hlast, ih hearlier, put, putEntry_of_not_mem hnew]

end Scope

/-! ### With fewer ancestors -/

/-- A document would have no ancestors but its own with these parents in place of its own. -/
def Document.Covers (cwd : Path) (d : Document) (parents : List Path) : Prop :=
  ({ d with parents := parents } : Document).ancestors cwd ⊆ d.ancestors cwd

lemma Document.covers_nil (cwd : Path) (d : Document) : d.Covers cwd [] := by
  refine List.map_subset _ ?_
  unfold chain
  split <;> simp

variable {ctx : Context} {nested : Document → Scope → Run Text} {d : Document}
  {scope scope' : Scope} {parents : List Path} {b : Block} {path : Path}

lemma Include.resolve_stricter (h : d.Covers ctx.cwd parents) (spec : Text) :
    (resolve ctx d spec).Stricter (resolve ctx { d with parents := parents } spec) := by
  refine Run.Stricter.bind (.refl _) fun found => ?_
  cases found with
  | none => exact .refl _
  | some p =>
    by_cases hp : p ∈ d.ancestors ctx.cwd
    · -- this is the include that only one of the documents refuses
      refine Or.inr ⟨_, by simp only [hp, if_true]; rfl, _, _, _, rfl, rfl⟩
    · have hp' : p ∉ ({ d with parents := parents } : Document).ancestors ctx.cwd :=
        fun hmem => hp (h hmem)
      simp only [hp, hp', if_false]
      exact .refl _

namespace Compile

/-- What is included has fewer ancestors if the including document has. -/
lemma covers_child (h : d.Covers ctx.cwd parents) (path : Path) (text : Text) :
    (child ctx d path text).Covers ctx.cwd
      (({ d with parents := parents } : Document).ancestors ctx.cwd) := by
  refine List.map_subset _ ?_
  unfold Document.chain child
  split
  · exact h
  · exact List.append_subset.2 ⟨fun p hp => List.mem_append_left _ (h hp),
      List.subset_append_right _ _⟩

/-- Compilations of one document, the second one with fewer ancestors. -/
def DocumentPairing.ofCovers (ctx : Context) : DocumentPairing ctx ctx.cwd where
  documents d d' := ∃ parents, d.Covers ctx.cwd parents ∧ d' = { d with parents := parents }
  spared := Failure.IsRecursive
  text_eq := fun ⟨_, _, hd⟩ => hd ▸ rfl
  file_eq := fun ⟨_, _, hd⟩ => hd ▸ rfl
  resolve := fun ⟨_, h, hd⟩ spec => hd ▸ (Include.resolve_stricter h spec).inStep
  relative := fun ⟨_, _, hd⟩ _ => hd ▸ rfl
  child := fun ⟨_, h, hd⟩ _ _ _ => hd ▸ ⟨_, covers_child h _ _, rfl⟩
  spared_leaving hf site := hf.leaving site

/-- A document is compiled as it would be with fewer ancestors, unless it ends with a recursive
include. -/
theorem within_stricter (depth : Nat) (d : Document) (parents : List Path) (scope : Scope)
    (h : d.Covers ctx.cwd parents) :
    (within ctx depth d scope).Stricter (within ctx depth { d with parents := parents } scope) :=
  (DocumentPairing.ofCovers ctx).within_eq_or_spared depth ⟨parents, h, rfl⟩ scope

/-! ### By itself -/

lemma Executes.namesOnce (h : Executes ctx nested d scope b scope') (hscope : scope.NamesOnce) :
    scope'.NamesOnce := by
  obtain ⟨-, bs, text, events, previous, rest, -, hreach, -⟩ := h
  obtain ⟨before, -, hdefined⟩ := scope_of_reaches hreach
  have hscope' : scope'
      = scope.defineAll ctx.settings.nilSentinel (Block.definitions before) := hdefined
  rw [hscope']
  exact hscope.defineAll _ _

lemma Opens.depth_eq {c c' : Call} (h : Opens ctx c b c') : c.depth = c'.depth + 1 := by
  cases h
  rfl

lemma Opens.namesOnce {c c' : Call} (h : Opens ctx c b c') (hscope : c.scope.NamesOnce) :
    c'.scope.NamesOnce := by
  obtain ⟨hexec, -, -, -, -, -, -, -⟩ := h
  exact hexec.namesOnce hscope

lemma Descends.depth_le {c c' : Call} {frames : List Frame} (h : Descends ctx c frames c') :
    c'.depth ≤ c.depth := by
  induction h with
  | here c => exact Nat.le_refl _
  | into hopens _ ih =>
    have hdepth := hopens.depth_eq
    omega

lemma Descends.namesOnce {c c' : Call} {frames : List Frame} (h : Descends ctx c frames c')
    (hscope : c.scope.NamesOnce) : c'.scope.NamesOnce := by
  induction h with
  | here c => exact hscope
  | into hopens _ ih => exact ih (hopens.namesOnce hscope)

/-- What a template leaves that is included is what compiling its text does. -/
lemma load_template_eq_ok_iff {text : Text} (htemplate : ctx.settings.isTemplate path = true) :
    (load ctx nested d scope false path).outcome = .ok text ↔
      ∃ bytes source, ctx.store.read path = .ok bytes ∧
        (decode ctx bytes).outcome = .ok source ∧
        (nested (child ctx d path source) scope).outcome = .ok text := by
  simp only [load, Run.bind_eq_ok_iff, readFile_eq_ok_iff, Bool.false_eq_true, if_false,
    htemplate, if_true, Run.outcome_emit]
  constructor
  · rintro ⟨bytes, hbytes, source, hsource, -, -, h⟩
    exact ⟨bytes, source, hbytes, hsource, h⟩
  · rintro ⟨bytes, source, hbytes, hsource, h⟩
    exact ⟨bytes, hbytes, source, hsource, (), trivial, h⟩

lemma readSource_eq_ok {bytes : Bytes} {text : Text} (hbytes : ctx.store.read path = .ok bytes)
    (htext : (decode ctx bytes).outcome = .ok text) :
    (readSource ctx path).outcome = .ok text := by
  refine Run.bind_eq_ok_iff.2 ⟨bytes, readFile_eq_ok_iff.2 hbytes, ?_⟩
  simp only [htext]

/-- What an included template leaves is what its file leaves by itself, with the variables and
the root directory of the include. -/
theorem file_eq_ok_of_load {depth : Nat} {text : Text}
    (hdepth : depth ≤ depthBound ctx.store + 1) (hscope : scope.NamesOnce)
    (htemplate : ctx.settings.isTemplate path = true)
    (h : (load ctx (nestedWithin ctx depth) d scope false path).outcome = .ok text) :
    (file ctx path (some scope.entries) (some d.rootDir) none).outcome = .ok text := by
  obtain ⟨bytes, source, hbytes, hsource, hchild⟩ := (load_template_eq_ok_iff htemplate).1 h
  -- the file by itself is the included document without anything further up
  let alone : Document := { child ctx d path source with parents := [] }
  have halone : (within ctx depth alone scope).outcome = .ok text := by
    rw [(within_stricter depth (child ctx d path source) [] scope
      (Document.covers_nil ctx.cwd _)).eq_of_ok hchild]
    exact hchild
  -- a text from this depth is the same from any greater one
  have hroom : (document ctx alone (.ofList scope.entries)).outcome = .ok text := by
    rw [Scope.ofList_entries hscope, document, within_of_le hdepth (by simp [halone]), halone]
  exact Run.bind_eq_ok_iff.2 ⟨source, readSource_eq_ok hbytes hsource, hroom⟩

/-- An include that succeeds leaves what its files do, with a newline between them. -/
lemma execute_inclusion_eq_ok {specs : List Text} {paths : List Path} {base64 : Bool} {text : Text}
    (hdirective : b.directive = .inclusion specs base64)
    (hpaths : (Run.forEach (Include.resolve ctx d) specs).outcome = .ok paths)
    (h : (execute ctx nested d scope b).outcome = .ok text) :
    ∃ pieces, text = List.intercalate ['\n'] pieces ∧
      List.Forall₂ (fun path piece =>
        (load ctx nested d scope base64 path).outcome = .ok piece) paths pieces := by
  rw [execute_outcome, hdirective] at h
  have hinclusion : (inclusion ctx nested d scope specs base64).outcome = .ok text := h
  unfold inclusion at hinclusion
  split at hinclusion
  · simp at hinclusion
  · obtain ⟨paths', hpaths', hinclusion⟩ := Run.bind_eq_ok_iff.1 hinclusion
    obtain rfl := Except.ok.inj (hpaths.symm.trans hpaths')
    obtain ⟨pieces, hpieces, hjoin⟩ := Run.bind_eq_ok_iff.1 hinclusion
    exact ⟨pieces, (Except.ok.inj hjoin).symm, Run.forEach_eq_ok_iff.1 hpieces⟩

/-- What is further up matters to a compilation only by the includes that it refuses.

Let the ancestors of a document contain the ones it would have with other parents.  If it is
compiled to a text, then with the other parents it is compiled to the same, with the same
events; and if it is with the other parents, then either itself as well or it ends with a
recursive include.  Wherever the compilation includes a template, at any depth, the template
leaves what its file leaves by itself, with the variables at the include and the root directory
of the including document, and this is what the include puts in its place. -/
theorem document_of_fewer_ancestors (ctx : Context) (d : Document) (parents : List Path)
    (initial : List (Text × Text))
    (hparents : ({ d with parents := parents } : Document).ancestors ctx.cwd
      ⊆ d.ancestors ctx.cwd) :
    (∀ text, (document ctx d (.ofList initial)).outcome = .ok text →
      document ctx { d with parents := parents } (.ofList initial)
        = document ctx d (.ofList initial)) ∧
      (∀ text, (document ctx { d with parents := parents } (.ofList initial)).outcome = .ok text →
        document ctx d (.ofList initial)
            = document ctx { d with parents := parents } (.ofList initial) ∨
          ∃ f, (document ctx d (.ofList initial)).outcome = .error f ∧ f.IsRecursive) ∧
      ∀ frames depth d₁ scope₁ b scope₂ specs paths,
        Descends ctx ⟨depthBound ctx.store + 1, d, .ofList initial⟩ frames
            ⟨depth + 1, d₁, scope₁⟩ →
          Executes ctx (nestedWithin ctx depth) d₁ scope₁ b scope₂ →
          b.directive = .inclusion specs false →
          (Run.forEach (Include.resolve ctx d₁) specs).outcome = .ok paths →
            (∀ path ∈ paths, ctx.settings.isTemplate path = true → ∀ text,
              (load ctx (nestedWithin ctx depth) d₁ scope₂ false path).outcome = .ok text →
                (file ctx path (some scope₂.entries) (some d₁.rootDir) none).outcome
                  = .ok text) ∧
              ∀ text, (execute ctx (nestedWithin ctx depth) d₁ scope₂ b).outcome = .ok text →
                ∃ pieces, text = List.intercalate ['\n'] pieces ∧
                  List.Forall₂ (fun path piece => ctx.settings.isTemplate path = true →
                    (file ctx path (some scope₂.entries) (some d₁.rootDir) none).outcome
                      = .ok piece) paths pieces := by
  have hstricter := within_stricter (depthBound ctx.store + 1) d parents (.ofList initial) hparents
  refine ⟨fun text h => hstricter.eq_of_ok h, fun _ _ => hstricter, ?_⟩
  intro frames depth d₁ scope₁ b scope₂ specs paths hdescends hexec hdirective hpaths
  have hdepth : depth ≤ depthBound ctx.store + 1 :=
    Nat.le_of_succ_le hdescends.depth_le
  have hscope : scope₂.NamesOnce :=
    hexec.namesOnce (hdescends.namesOnce (Scope.namesOnce_ofList initial))
  refine ⟨fun path _ htemplate text h => file_eq_ok_of_load hdepth hscope htemplate h, ?_⟩
  intro text h
  obtain ⟨pieces, htext, hpieces⟩ := execute_inclusion_eq_ok hdirective hpaths h
  exact ⟨pieces, htext, hpieces.imp fun _ _ hpiece htemplate =>
    file_eq_ok_of_load hdepth hscope htemplate hpiece⟩

/-- A document below another one: an include of a third one succeeds with or without what is
further up, and an include of the one further up does not. -/
theorem document_of_fewer_ancestors_of_include :
    let m : MemoryStore :=
      ⟨[("/site/main.kit".toList, Encoding.utf8Bytes "main".toList),
        ("/site/b.kit".toList, Encoding.utf8Bytes "b <!--$n-->".toList)], []⟩
    let ctx : Context := ⟨m.toStore, {}, "/site".toList, Codec.builtIn⟩
    let d (text : Text) : Document :=
      { text := text, file := "/site/a.kit".toList, rootDir := "/site".toList
        parents := ["/site/main.kit".toList] }
    let below := d "<!--$n=1--><!--@include b-->".toList
    let above := d "<!--@include main-->".toList
    (document ctx below (.ofList [])).outcome = .ok "b 1".toList ∧
      document ctx { below with parents := [] } (.ofList []) = document ctx below (.ofList []) ∧
      (file ctx "/site/b.kit".toList (some [("n".toList, "1".toList)]) (some "/site".toList)
        none).outcome = .ok "b 1".toList ∧
      (document ctx { above with parents := [] } (.ofList [])).outcome = .ok "main".toList ∧
      ∃ f, (document ctx above (.ofList [])).outcome = .error f ∧ f.IsRecursive := by
  intro m ctx d below above
  have hbelow : (document ctx below (.ofList [])).outcome = .ok "b 1".toList := by decide +kernel
  have habove : (document ctx { above with parents := [] } (.ofList [])).outcome
      = .ok "main".toList := by decide +kernel
  obtain ⟨hsame, -, halone⟩ :=
    document_of_fewer_ancestors ctx below [] [] (below.covers_nil ctx.cwd)
  obtain ⟨-, hrefused, -⟩ :=
    document_of_fewer_ancestors ctx above [] [] (above.covers_nil ctx.cwd)
  have hnot : (document ctx above (.ofList [])).outcome ≠ .ok "main".toList := by decide +kernel
  refine ⟨hbelow, hsame _ hbelow, ?_, habove,
    (hrefused _ habove).resolve_left fun h => hnot (h ▸ habove)⟩
  -- the include is executed with the variable that is defined before it
  have hscan : Block.scan below.text
      = .ok [⟨0, "<!--$n=1-->".toList⟩, ⟨11, "<!--@include b-->".toList⟩] := by decide +kernel
  have hdefined : (block ctx (nestedWithin ctx (depthBound ctx.store)) below (.ofList [])
      ⟨0, "<!--$n=1-->".toList⟩).outcome = .ok [] := by decide +kernel
  have hexec : Executes ctx (nestedWithin ctx (depthBound ctx.store)) below (.ofList [])
      ⟨11, "<!--@include b-->".toList⟩ ⟨[("n".toList, "1".toList)]⟩ :=
    ⟨by decide, _, _, _, _, _, hscan, .keep (by decide) hdefined (.here _), by decide⟩
  exact (halone [] _ below _ _ _ ["b".toList] ["/site/b.kit".toList] (.here _) hexec (by decide)
    (by decide +kernel)).1 _ List.mem_cons_self (by decide) _ (by decide +kernel)

end Compile

end CommentMarkup
