/-
# Names with a template extension

Most candidates of an include are names that a template extension has been put behind.  Whether such
a file is compiled is decided by the extension that is read off its path again, which is what
follows the last dot of its last component.  So this need not be the extension that has been put
there: of an extension with a further dot only the last part is seen, and of one with a separator
only what belongs to the last component (`Extension.seen`).

Every candidate with a template extension is compiled exactly if what is seen of each extension is a
template extension itself (`compiles_extended_iff`), which is so if no extension has a further dot
or a separator.  Otherwise templates are found under names that make them no templates, and are
copied as they are (`extended_not_compiled`).
-/
import CommentMarkup.Proofs.Resolution
import CommentMarkup.Compile

namespace CommentMarkup

/-! ### The last dot and the last separator -/

/-- A character of a text occurs in it for a last time. -/
lemma exists_last_occurrence {x : Char} {t : Text} (h : x ∈ t) :
    ∃ v w, t = v ++ x :: w ∧ x ∉ w := by
  obtain ⟨later, before, ht, hlater⟩ := List.eq_append_cons_of_mem (List.mem_reverse.2 h)
  refine ⟨before.reverse, later.reverse, ?_, by simpa using hlater⟩
  rw [← List.reverse_reverse t, ht]
  simp

namespace Path

variable {u v w p q : Text}

/-- What stands before a separator has no part in the last component. -/
lemma fileName_append_of_mem (h : '/' ∈ v) (u : Path) : fileName (u ++ v) = fileName v := by
  obtain ⟨before, name, rfl, hname⟩ := exists_last_occurrence h
  rw [← List.append_assoc, fileName_append_separator hname, fileName_append_separator hname]

/-- What is put behind a path without a separator goes to its last component. -/
lemma fileName_append_of_not_mem (h : '/' ∉ v) (u : Path) :
    fileName (u ++ v) = fileName u ++ v := by
  simp only [fileName, List.reverse_append]
  rw [List.takeWhile_append_of_pos (ne_of_mem_reverse h), List.reverse_append,
    List.reverse_reverse]

lemma extension_congr (h : fileName p = fileName q) : extension p = extension q := by
  simp only [extension, h]

/-- The extension begins at the last dot, if there is anything but dots before that one. -/
lemma extension_of_last_dot (hname : fileName p = v ++ '.' :: w) (hw : '.' ∉ w)
    (hv : ∃ c ∈ v, c ≠ '.') : extension p = '.' :: w := by
  have hreverse : (fileName p).reverse = w.reverse ++ '.' :: v.reverse := by simp [hname]
  simp only [extension, hreverse]
  rw [List.takeWhile_append_of_pos (ne_of_mem_reverse hw),
    List.dropWhile_append_of_pos (ne_of_mem_reverse hw)]
  simpa using hv

lemma suffix_join (base p : Path) : p <:+ join base p := by
  unfold join
  split
  · exact List.suffix_rfl
  · split
    · exact List.suffix_append _ _
    · exact (List.suffix_cons _ _).trans (List.suffix_append _ _)

end Path

namespace Extension

variable {e : Extension} {name : Text}

/-- What is read off a name with this extension: the last part of the extension, and if there is a
separator in it, the extension of its own last component. -/
def seen (e : Extension) : Text :=
  if '/' ∈ e.name then Path.extension e.name else '.' :: e.text.rtakeWhile (· ≠ '.')

/-- A plain extension is seen as it is. -/
lemma seen_eq_text (hdot : '.' ∉ e.name) (hsep : '/' ∉ e.name) : e.seen = e.text := by
  rw [seen, if_neg hsep, text, List.rtakeWhile, List.reverse_cons,
    List.takeWhile_append_of_pos (Path.ne_of_mem_reverse hdot)]
  simp

/-- Wherever a name with an extension stands, the same is seen of the extension. -/
lemma extension_append_eq_seen (hsep : '/' ∉ name) (hname : ∃ c ∈ name, c ≠ '.') (u : Text)
    (e : Extension) : Path.extension (u ++ name ++ e.text) = e.seen := by
  by_cases hext : '/' ∈ e.name
  · have hlast : Path.fileName (u ++ name ++ e.text) = Path.fileName e.name := by
      rw [text, List.append_cons, Path.fileName_append_of_mem hext]
    rw [seen, if_pos hext, Path.extension_congr hlast]
  · have hdot : '.' ∈ e.text := List.mem_cons_self
    obtain ⟨v, w, htext, hw⟩ := exists_last_occurrence hdot
    have hnone : '/' ∉ name ++ e.text := by simpa [text, hsep] using hext
    have hlast : Path.fileName (u ++ name ++ e.text)
        = (Path.fileName u ++ name ++ v) ++ '.' :: w := by
      rw [List.append_assoc, Path.fileName_append_of_not_mem hnone, htext]
      simp
    have hseen : e.seen = '.' :: w := by
      rw [seen, if_neg hext, htext, List.rtakeWhile, List.reverse_append, List.reverse_cons,
        List.append_assoc, List.takeWhile_append_of_pos (Path.ne_of_mem_reverse hw)]
      simp
    obtain ⟨c, hc, hother⟩ := hname
    rw [hseen, Path.extension_of_last_dot hlast hw ⟨c, by simp [hc], hother⟩]

end Extension

namespace Settings

variable {s : Settings} {name n : Text}

/-- The candidates of a bare name that a template extension has been put behind. -/
def extendedNames (s : Settings) (name : Text) : List Text :=
  (s.variants name).tail ++ (s.variants (s.partialMark ++ name)).tail

/-- What is seen of each template extension is a template extension. -/
def SeesExtensions (s : Settings) : Prop :=
  ∀ e ∈ s.templateExtensions, e.seen ∈ s.templateExtensions.map Extension.text

lemma isTemplate_iff {p : Path} :
    s.isTemplate p = true ↔ Path.extension p ∈ s.templateExtensions.map Extension.text := by
  simp [isTemplate]

lemma mem_extendedNames_iff : n ∈ s.extendedNames name ↔
    ∃ e ∈ s.templateExtensions, n = name ++ e.text ∨ n = s.partialMark ++ name ++ e.text := by
  simp only [extendedNames, variants, List.tail_cons, List.mem_append, List.mem_map, and_or_left,
    exists_or, eq_comm]

/-- What is seen of an extension does not depend on the name, the partial mark or the directory. -/
lemma exists_seen_of_mem_extendedNames (hsep : '/' ∉ name) (hname : ∃ c ∈ name, c ≠ '.')
    (hn : n ∈ s.extendedNames name) :
    ∃ e ∈ s.templateExtensions, ∀ directory, Path.extension (Path.join directory n) = e.seen := by
  obtain ⟨e, he, hn⟩ := mem_extendedNames_iff.1 hn
  have hwhole : ∃ before, n = before ++ name ++ e.text := by
    rcases hn with rfl | rfl
    · exact ⟨[], rfl⟩
    · exact ⟨s.partialMark, rfl⟩
  obtain ⟨before, rfl⟩ := hwhole
  refine ⟨e, he, fun directory => ?_⟩
  obtain ⟨u, hu⟩ := Path.suffix_join directory (before ++ name ++ e.text)
  rw [← hu, ← List.append_assoc, ← List.append_assoc]
  exact Extension.extension_append_eq_seen hsep hname _ e

end Settings

namespace Compile

variable {ctx : Context} {nested : Document → Scope → Run Text} {d : Document} {scope : Scope}
  {path : Path}

/-- What an included file leaves if it is compiled. -/
def loadCompiled (ctx : Context) (nested : Document → Scope → Run Text) (d : Document)
    (scope : Scope) (path : Path) : Run Text := do
  let bytes ← readFile ctx.store path
  let text ← decode ctx bytes
  Run.emit (.noted (.including (d.relative ctx.cwd path)))
  nested (child ctx d path text) scope

lemma load_of_isTemplate (h : ctx.settings.isTemplate path = true) :
    load ctx nested d scope false path = loadCompiled ctx nested d scope path := by
  simp only [load, loadCompiled, Bool.false_eq_true, if_false, h, if_true]

/-- Whether candidates with a template extension are compiled.

Take any bare name that has a character other than a dot.  All candidates that are this name, or
this name with the partial mark, with a template extension behind it are templates in every
directory, and are compiled when they are included, exactly if what is seen of each template
extension is a template extension.  This is so if no template extension has another dot or a
separator. -/
theorem compiles_extended_iff (s : Settings) :
    (s.SeesExtensions ↔ ∀ name, '/' ∉ name → (∃ c ∈ name, c ≠ '.') →
        ∀ n ∈ s.extendedNames name, ∀ directory,
          let path := Path.join directory n
          s.isTemplate path = true ∧ ∀ store cwd nested d scope,
            load ⟨store, s, cwd, codecs⟩ nested d scope false path
              = loadCompiled ⟨store, s, cwd, codecs⟩ nested d scope path) ∧
      ((∀ e ∈ s.templateExtensions, '.' ∉ e.name ∧ '/' ∉ e.name) → s.SeesExtensions) := by
  refine ⟨⟨?_, ?_⟩, ?_⟩
  · intro hsees name hsep hname n hn directory path
    obtain ⟨e, he, hseen⟩ := Settings.exists_seen_of_mem_extendedNames hsep hname hn
    have htemplate : s.isTemplate path = true := by
      rw [Settings.isTemplate_iff, hseen]
      exact hsees e he
    exact ⟨htemplate, fun store cwd nested d scope => load_of_isTemplate htemplate⟩
  · -- one name shows what is seen of an extension
    intro hall e he
    have hsep : '/' ∉ ['x'] := by decide
    have hname : ∃ c ∈ ['x'], c ≠ '.' := ⟨'x', by decide, by decide⟩
    have hmem : ['x'] ++ e.text ∈ s.extendedNames ['x'] :=
      Settings.mem_extendedNames_iff.2 ⟨e, he, Or.inl rfl⟩
    have htemplate : s.isTemplate (['x'] ++ e.text) = true := (hall ['x'] hsep hname _ hmem []).1
    have hseen := Extension.extension_append_eq_seen hsep hname [] e
    rwa [Settings.isTemplate_iff, ← List.nil_append ['x'], hseen] at htemplate
  · intro hplain e he
    rw [Extension.seen_eq_text (hplain e he).1 (hplain e he).2]
    exact List.mem_map_of_mem he

/-- A template extension with two dots. -/
theorem extended_not_compiled :
    let s : Settings := { templateExtensions := [⟨"kit.html".toList⟩] }
    let m : MemoryStore :=
      ⟨[("/site/a.kit.html".toList, Encoding.utf8Bytes "<!--$n?-->".toList)], []⟩
    let d : Document :=
      { text := "<!--@include a-->".toList, file := "/site/b.kit".toList
        rootDir := "/site".toList, parents := [] }
    ('/' ∉ "a".toList ∧ ∃ c ∈ "a".toList, c ≠ '.') ∧
      "a.kit.html".toList ∈ s.extendedNames "a".toList ∧
      s.isTemplate (Path.join "/site".toList "a.kit.html".toList) = false ∧
      (document ⟨m.toStore, s, "/site".toList, Codec.builtIn⟩ d .empty).outcome
        = .ok "<!--$n?-->".toList := by
  intro s m d
  exact ⟨⟨by decide, 'a', by decide, by decide⟩, by decide, by decide, by decide +kernel⟩

end Compile

end CommentMarkup
