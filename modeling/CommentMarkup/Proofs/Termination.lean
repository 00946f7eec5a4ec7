/-
# Compilation ends

An include opens only a template that is none of the documents being compiled, and that
becomes one of them.  So documents are nested at most once for every template of the store,
besides the first one (`descends_length_le`), whatever the templates include.  It follows that
a compilation ends with a text or with a failure that is not a matter of depth, and that no
greater depth changes it (`document_finishes`).

This needs settings without separators in the partial mark and the template extensions, and a
current directory that is absolute, as current directories are.
-/
import CommentMarkup.Proofs.Ancestry
import Mathlib.Data.Finset.Card

namespace CommentMarkup

/-- All templates of a store are among some paths. -/
def Store.TemplatesIn (store : Store) (s : Settings) (paths : Finset Path) : Prop :=
  ∀ p, store.contains p = .ok true → s.isTemplate p = true → p ∈ paths

/-- The distinct paths of a memory store at which there are templates. -/
def MemoryStore.templates (m : MemoryStore) (s : Settings) : Finset Path :=
  (m.files.map Prod.fst).toFinset.filter fun p => s.isTemplate p = true

lemma MemoryStore.templatesIn (m : MemoryStore) (s : Settings) :
    m.toStore.TemplatesIn s (m.templates s) := by
  intro p hcontains ht
  have hfile : (m.files.lookup p).isSome = true := by
    simpa [toStore, contains] using hcontains
  obtain ⟨file, hmem, hp⟩ := List.lookup_isSome_iff.1 hfile
  simp only [templates, Finset.mem_filter, List.mem_toFinset]
  exact ⟨List.mem_map.2 ⟨file, hmem, (beq_iff_eq.1 hp).symm⟩, ht⟩

lemma MemoryStore.card_templates_le (m : MemoryStore) (s : Settings) :
    (m.templates s).card ≤ m.toStore.capacity := by
  calc (m.templates s).card ≤ (m.files.map Prod.fst).toFinset.card := Finset.card_filter_le _ _
    _ ≤ (m.files.map Prod.fst).length := List.toFinset_card_le _
    _ = m.files.length := List.length_map _

namespace Compile

variable {ctx : Context} {paths : Finset Path} {c c' : Call} {b : Block}

/-- The paths at which no document is being compiled yet. -/
def unopened (cwd : Path) (paths : Finset Path) (d : Document) : Finset Path :=
  paths \ (d.ancestors cwd).toFinset

/-- Opening a document leaves fewer templates that can be opened. -/
lemma card_unopened_lt (hcwd : Path.isAbsolute ctx.cwd = true)
    (hnormal : ctx.settings.NormalTemplates) (hpaths : ctx.store.TemplatesIn ctx.settings paths)
    (h : Opens ctx c b c') :
    (unopened ctx.cwd paths c'.document).card < (unopened ctx.cwd paths c.document).card := by
  obtain ⟨path, hcontains, ht, hnot, hancestors⟩ := h.exists_ancestor hcwd hnormal
  refine Finset.card_lt_card (Finset.ssubset_iff_subset_ne.2 ⟨fun p hp => ?_, fun heq => ?_⟩)
  · simp only [unopened, Finset.mem_sdiff, List.mem_toFinset, hancestors, List.mem_append,
      not_or] at hp ⊢
    exact ⟨hp.1, hp.2.1⟩
  · have hpath : path ∈ unopened ctx.cwd paths c.document := by
      simp only [unopened, Finset.mem_sdiff, List.mem_toFinset]
      exact ⟨hpaths path hcontains ht, hnot⟩
    rw [← heq] at hpath
    simp [unopened, hancestors] at hpath

/-- Besides the first document, at most one document is compiled inside others for every
template that is not being compiled yet. -/
theorem descends_length_le (hcwd : Path.isAbsolute ctx.cwd = true)
    (hnormal : ctx.settings.NormalTemplates) (hpaths : ctx.store.TemplatesIn ctx.settings paths)
    {frames : List Frame} (h : Descends ctx c frames c') :
    frames.length ≤ (unopened ctx.cwd paths c.document).card := by
  induction h with
  | here c => simp
  | into hopens _ ih =>
    have hlt := card_unopened_lt hcwd hnormal hpaths hopens
    simp only [List.length_cons]
    omega

lemma length_le_card (hcwd : Path.isAbsolute ctx.cwd = true)
    (hnormal : ctx.settings.NormalTemplates) (hpaths : ctx.store.TemplatesIn ctx.settings paths)
    {frames : List Frame} (h : Descends ctx c frames c') : frames.length ≤ paths.card :=
  (descends_length_le hcwd hnormal hpaths h).trans (Finset.card_le_card Finset.sdiff_subset)

/-- A depth that is greater than the number of templates is enough. -/
lemma within_ne_tooDeep (hcwd : Path.isAbsolute ctx.cwd = true)
    (hnormal : ctx.settings.NormalTemplates) (hpaths : ctx.store.TemplatesIn ctx.settings paths)
    {depth : Nat} (hdepth : paths.card < depth) (d : Document) (scope : Scope) :
    (within ctx depth d scope).outcome ≠ .error .tooDeep := by
  intro h
  obtain ⟨frames, c, hdescends, hlength⟩ := descends_of_tooDeep h
  have hle := length_le_card hcwd hnormal hpaths hdescends
  omega

lemma capacity_lt_depthBound (store : Store) : store.capacity < depthBound store := by
  rw [depthBound, Nat.mul_succ]
  omega

/-- No compilation is cut off whose store has no more templates than it has room for. -/
lemma document_ne_tooDeep (hcwd : Path.isAbsolute ctx.cwd = true)
    (hnormal : ctx.settings.NormalTemplates) (hpaths : ctx.store.TemplatesIn ctx.settings paths)
    (hcard : paths.card ≤ ctx.store.capacity) (d : Document) (scope : Scope) :
    (document ctx d scope).outcome ≠ .error .tooDeep :=
  within_ne_tooDeep hcwd hnormal hpaths
    (Nat.lt_succ_of_lt (hcard.trans_lt (capacity_lt_depthBound ctx.store))) d scope

/-- Every compilation ends: with a text, or with a failure that is not one of depth.  Its
result is the same at every depth greater than the number of templates of the store, and at
no depth are more documents compiled inside one another than there are templates, besides the
first one. -/
theorem document_finishes (m : MemoryStore) (s : Settings) (cwd : Path) (codecs : Codecs)
    (hcwd : Path.isAbsolute cwd = true) (hmark : '/' ∉ s.partialMark)
    (hext : ∀ e ∈ s.templateExtensions, '/' ∉ e.text) (d : Document) (scope : Scope) :
    let ctx : Context := ⟨m.toStore, s, cwd, codecs⟩
    ((∃ text, (document ctx d scope).outcome = .ok text) ∨
        ∃ f, f ≠ .tooDeep ∧ (document ctx d scope).outcome = .error f) ∧
      (∀ depth, (m.templates s).card < depth → within ctx depth d scope = document ctx d scope) ∧
      ∀ depth frames c, Descends ctx ⟨depth, d, scope⟩ frames c →
        frames.length + 1 ≤ 1 + (m.templates s).card := by
  intro ctx
  have hnormal : ctx.settings.NormalTemplates := s.normalTemplates_of_no_separator hmark hext
  have hcard := m.card_templates_le s
  have hne : (document ctx d scope).outcome ≠ .error .tooDeep :=
    document_ne_tooDeep hcwd hnormal (m.templatesIn s) hcard d scope
  refine ⟨?_, fun depth hdepth => ?_, fun depth frames c hdescends => ?_⟩
  · cases h : (document ctx d scope).outcome with
    | ok text => exact Or.inl ⟨text, rfl⟩
    | error f => exact Or.inr ⟨f, fun hf => hne (hf ▸ h), rfl⟩
  · -- the two depths are compared with the least one that is enough
    have hleast : (within ctx ((m.templates s).card + 1) d scope).outcome ≠ .error .tooDeep :=
      within_ne_tooDeep hcwd hnormal (m.templatesIn s) (Nat.lt_succ_self _) d scope
    have hbound : (m.templates s).card < depthBound m.toStore :=
      hcard.trans_lt (capacity_lt_depthBound m.toStore)
    rw [document, within_of_le hdepth hleast,
      within_of_le (Nat.succ_le_of_lt (Nat.lt_succ_of_lt hbound)) hleast]
  · have hle := length_le_card hcwd hnormal (m.templatesIn s) hdescends
    omega

/-- Two templates that include each other are compiled at most once inside one another. -/
theorem document_finishes_of_cycle :
    let m : MemoryStore :=
      ⟨[("/site/a.kit".toList, Encoding.utf8Bytes "<!--@include b-->".toList),
        ("/site/b.kit".toList, Encoding.utf8Bytes "<!--@include /a-->".toList)], []⟩
    let s : Settings := {}
    let d : Document :=
      { text := "<!--@include b-->".toList, file := "/site/main.kit".toList
        rootDir := "/site".toList, parents := [] }
    let ctx : Context := ⟨m.toStore, s, "/site".toList, Codec.builtIn⟩
    Path.isAbsolute "/site".toList = true ∧ '/' ∉ s.partialMark ∧
      (∀ e ∈ s.templateExtensions, '/' ∉ e.text) ∧
      within ctx 3 d .empty = document ctx d .empty ∧
      ∀ depth frames c, Descends ctx ⟨depth, d, .empty⟩ frames c → frames.length + 1 ≤ 3 := by
  intro m s d ctx
  have hmark : '/' ∉ s.partialMark := by decide
  have hext : ∀ e ∈ s.templateExtensions, '/' ∉ e.text := by decide
  have hcard : (m.templates s).card = 2 := by decide +kernel
  obtain ⟨-, hsame, hlength⟩ :=
    document_finishes m s "/site".toList Codec.builtIn (by decide) hmark hext d .empty
  rw [hcard] at hsame hlength
  exact ⟨by decide, hmark, hext, hsame 3 (by decide), hlength⟩

end Compile

end CommentMarkup
