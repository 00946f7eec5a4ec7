/-
# What a base64 include leaves

The base64 form of some bytes is made of the 64 symbols of the standard alphabet, four for every
three bytes, with padding signs at its end only.  Reading it in the standard way gives the bytes
back (`decode?_encode`), so nothing of them is lost.  A base64 include leaves the forms of its
files and does nothing else with them: neither an encoding nor the way in which includes are
compiled has a part in it, and the forms stand in what the document is compiled to
(`base64_inclusion`).
-/
import Mathlib.Data.List.Forall2
import CommentMarkup.Proofs.Nesting
import CommentMarkup.Proofs.StoreAccess

namespace CommentMarkup

namespace Base64

/-- The symbols, in the order of their numbers. -/
def alphabet : Text :=
  "ABCDEFGHIJKLMNOPQRSTUVWXYZabcdefghijklmnopqrstuvwxyz0123456789+/".toList

/-- The number of a symbol. -/
def number? (c : Char) : Option Nat := alphabet.idxOf? c

/-- The number whose bits are those of some symbols, six bits each. -/
def bits? (symbols : Text) : Option Nat :=
  symbols.foldlM (fun n c => (number? c).map (n * 0x40 + ·)) 0

/-- The bytes that a text is the base64 form of.  Four symbols have the bits of three bytes.  In the
last four places there may be one padding sign or two; the symbols before them have the bits of two
bytes or of one, and some bits behind these that say nothing. -/
def decode? : Text → Option Bytes
  | [] => some []
  | p :: q :: r :: s :: rest =>
    if rest = [] ∧ r = padding ∧ s = padding then
      (bits? [p, q]).map fun n => [UInt8.ofNat (n / 0x10)]
    else if rest = [] ∧ s = padding then
      (bits? [p, q, r]).map fun n => [UInt8.ofNat (n / 0x400), UInt8.ofNat (n / 4)]
    else do
      let n ← bits? [p, q, r, s]
      let later ← decode? rest
      return UInt8.ofNat (n / 0x10000) :: UInt8.ofNat (n / 0x100) :: UInt8.ofNat n :: later
  | _ => none

variable {a b c : UInt8} {n : Nat} {bytes : Bytes}

/-! ### Symbols -/

lemma number?_symbol (h : n < 64) : number? (symbol n) = some n := by
  have hall : ∀ n < 64, number? (symbol n) = some n := by decide +kernel
  exact hall n h

lemma symbol_mem (h : n < 64) : symbol n ∈ alphabet := by
  by_contra hnot
  have hnone : number? (symbol n) = none := List.idxOf?_eq_none_iff.2 hnot
  exact absurd ((number?_symbol h).symm.trans hnone) (by simp)

lemma symbol_ne_padding (h : n < 64) : symbol n ≠ padding := by
  have hpadding : padding ∉ alphabet := by decide
  exact fun heq => hpadding (heq ▸ symbol_mem h)

/-- The bits of symbols are those of their numbers. -/
lemma bits?_map_symbol (numbers : List Nat) (h : ∀ n ∈ numbers, n < 64) :
    bits? (numbers.map symbol) = some (numbers.foldl (fun n m => n * 0x40 + m) 0) := by
  unfold bits?
  generalize 0 = start
  induction numbers generalizing start with
  | nil => rfl
  | cons m rest ih =>
    obtain ⟨hm, hrest⟩ := List.forall_mem_cons.1 h
    rw [List.map_cons, List.foldlM_cons, number?_symbol hm]
    exact ih hrest _

/-- The numbers below 64 that hold the bits of three bytes. -/
lemma numbers_lt (a b c : UInt8) :
    a.toNat / 4 < 64 ∧ a.toNat % 4 * 16 + b.toNat / 16 < 64 ∧
      b.toNat % 16 * 4 + c.toNat / 64 < 64 ∧ c.toNat % 64 < 64 := by
  have ha := a.toNat_lt
  have hb := b.toNat_lt
  have hc := c.toNat_lt
  omega

/-! ### Forms -/

/-- A base64 form is made of symbols, with at most two padding signs behind them. -/
lemma exists_symbols (bytes : Bytes) :
    ∃ symbols count, encode bytes = symbols ++ List.replicate count padding ∧
      (∀ c ∈ symbols, c ∈ alphabet) ∧ count ≤ 2 := by
  induction bytes using encode.induct with
  | case1 => exact ⟨[], 0, rfl, by simp, by decide⟩
  | case2 a =>
    obtain ⟨h₁, h₂, -⟩ := numbers_lt a 0 0
    refine ⟨[_, _], 2, rfl, ?_, Nat.le_refl 2⟩
    simpa using ⟨symbol_mem h₁, symbol_mem h₂⟩
  | case3 a b =>
    obtain ⟨h₁, h₂, h₃, -⟩ := numbers_lt a b 0
    refine ⟨[_, _, _], 1, rfl, ?_, by decide⟩
    simpa using ⟨symbol_mem h₁, symbol_mem h₂, symbol_mem h₃⟩
  | case4 a b c rest ih =>
    obtain ⟨h₁, h₂, h₃, h₄⟩ := numbers_lt a b c
    obtain ⟨symbols, count, hform, hsymbols, hcount⟩ := ih
    refine ⟨_ :: _ :: _ :: _ :: symbols, count, by rw [encode, hform]; rfl, ?_, hcount⟩
    simpa using ⟨symbol_mem h₁, symbol_mem h₂, symbol_mem h₃, symbol_mem h₄, hsymbols⟩

/-- There are four places in a form for every three bytes that are begun. -/
lemma length_encode (bytes : Bytes) : (encode bytes).length = 4 * ((bytes.length + 2) / 3) := by
  induction bytes using encode.induct with
  | case1 => rfl
  | case2 | case3 => simp [encode]
  | case4 a b c rest ih =>
    simp only [encode, List.length_cons, ih]
    omega

/-! ### Reading -/

/-- Four symbols hold the bits of three bytes. -/
lemma bits?_three (a b c : UInt8) :
    bits? [symbol (a.toNat / 4), symbol (a.toNat % 4 * 16 + b.toNat / 16),
        symbol (b.toNat % 16 * 4 + c.toNat / 64), symbol (c.toNat % 64)]
      = some (a.toNat * 0x10000 + b.toNat * 0x100 + c.toNat) := by
  obtain ⟨h₁, h₂, h₃, h₄⟩ := numbers_lt a b c
  refine (bits?_map_symbol [_, _, _, _] (by simpa using ⟨h₁, h₂, h₃, h₄⟩)).trans ?_
  simp only [List.foldl_cons, List.foldl_nil, Option.some.injEq]
  omega

/-- Three symbols hold the bits of two bytes and two more. -/
lemma bits?_two (a b : UInt8) :
    bits? [symbol (a.toNat / 4), symbol (a.toNat % 4 * 16 + b.toNat / 16),
        symbol (b.toNat % 16 * 4)]
      = some (a.toNat * 0x400 + b.toNat * 4) := by
  obtain ⟨h₁, h₂, h₃, -⟩ := numbers_lt a b 0
  refine (bits?_map_symbol [_, _, _] (by simpa using ⟨h₁, h₂, h₃⟩)).trans ?_
  simp only [List.foldl_cons, List.foldl_nil, Option.some.injEq]
  omega

/-- Two symbols hold the bits of one byte and four more. -/
lemma bits?_one (a : UInt8) :
    bits? [symbol (a.toNat / 4), symbol (a.toNat % 4 * 16)] = some (a.toNat * 0x10) := by
  obtain ⟨h₁, h₂, -⟩ := numbers_lt a 0 0
  refine (bits?_map_symbol [_, _] (by simpa using ⟨h₁, h₂⟩)).trans ?_
  simp only [List.foldl_cons, List.foldl_nil, Option.some.injEq]
  omega

/-- Reading undoes writing. -/
theorem decode?_encode (bytes : Bytes) : decode? (encode bytes) = some bytes := by
  induction bytes using encode.induct with
  | case1 => rfl
  | case2 a =>
    have ha' := a.toNat_lt
    have ha : UInt8.ofNat (a.toNat * 0x10 / 0x10) = a :=
      (UInt8.ofNat_eq_iff_mod_eq_toNat _ _).2 (by omega)
    simp only [encode, decode?, and_self, if_true, bits?_one, Option.map_some, ha]
  | case3 a b =>
    obtain ⟨-, -, h₃, -⟩ := numbers_lt a b 0
    have ha' := a.toNat_lt
    have hb' := b.toNat_lt
    have ha : UInt8.ofNat ((a.toNat * 0x400 + b.toNat * 4) / 0x400) = a :=
      (UInt8.ofNat_eq_iff_mod_eq_toNat _ _).2 (by omega)
    have hb : UInt8.ofNat ((a.toNat * 0x400 + b.toNat * 4) / 4) = b :=
      (UInt8.ofNat_eq_iff_mod_eq_toNat _ _).2 (by omega)
    have hthird : symbol (b.toNat % 16 * 4) ≠ padding := symbol_ne_padding (by omega)
    simp only [encode, decode?, hthird, false_and, and_false, and_self, if_true, if_false,
      bits?_two, Option.map_some, ha, hb]
  | case4 a b c rest ih =>
    obtain ⟨-, -, -, h₄⟩ := numbers_lt a b c
    have ha' := a.toNat_lt
    have hb' := b.toNat_lt
    have hc' := c.toNat_lt
    have ha : UInt8.ofNat ((a.toNat * 0x10000 + b.toNat * 0x100 + c.toNat) / 0x10000) = a :=
      (UInt8.ofNat_eq_iff_mod_eq_toNat _ _).2 (by omega)
    have hb : UInt8.ofNat ((a.toNat * 0x10000 + b.toNat * 0x100 + c.toNat) / 0x100) = b :=
      (UInt8.ofNat_eq_iff_mod_eq_toNat _ _).2 (by omega)
    have hc : UInt8.ofNat (a.toNat * 0x10000 + b.toNat * 0x100 + c.toNat) = c :=
      (UInt8.ofNat_eq_iff_mod_eq_toNat _ _).2 (by omega)
    have hlast : symbol (c.toNat % 64) ≠ padding := symbol_ne_padding h₄
    simp only [encode, decode?, hlast, and_false, if_false, bits?_three, ih, Option.bind_eq_bind,
      Option.bind_some, Option.pure_def, ha, hb, hc]

example : decode? "Zm9vYg==".toList = some [0x66, 0x6F, 0x6F, 0x62] := by decide

/-- A text is the standard base64 form of some bytes. -/
structure IsForm (text : Text) (bytes : Bytes) : Prop where
  /-- It is made of symbols, with at most two padding signs behind them. -/
  symbols : ∃ symbols count, text = symbols ++ List.replicate count padding ∧
    (∀ c ∈ symbols, c ∈ alphabet) ∧ count ≤ 2
  /-- There are four places for every three bytes that are begun. -/
  length : text.length = 4 * ((bytes.length + 2) / 3)
  /-- The bytes are what is read from it. -/
  decode : decode? text = some bytes

lemma isForm_encode (bytes : Bytes) : IsForm (encode bytes) bytes :=
  ⟨exists_symbols bytes, length_encode bytes, decode?_encode bytes⟩

lemma IsForm.inj {text : Text} {bytes bytes' : Bytes} (h : IsForm text bytes)
    (h' : IsForm text bytes') : bytes = bytes' :=
  Option.some.inj (h.decode.symm.trans h'.decode)

lemma encode_injective : Function.Injective encode := fun bytes bytes' h =>
  (isForm_encode bytes).inj (h ▸ isForm_encode bytes')

/-- A form is one line. -/
lemma newline_not_mem (bytes : Bytes) : '\n' ∉ encode bytes := by
  obtain ⟨symbols, count, hform, hsymbols, -⟩ := exists_symbols bytes
  have halphabet : '\n' ∉ alphabet := by decide
  have hpadding : '\n' ≠ padding := by decide
  rw [hform, List.mem_append, not_or]
  exact ⟨fun h => halphabet (hsymbols _ h), fun h => hpadding (List.eq_of_mem_replicate h)⟩

/-- Forms on lines of their own are told apart by these lines. -/
lemma map_encode_inj {contents others : List Bytes} (hcontents : contents ≠ [])
    (hothers : others ≠ [])
    (h : List.intercalate ['\n'] (others.map encode)
      = List.intercalate ['\n'] (contents.map encode)) : others = contents := by
  have hlines : ∀ contents : List Bytes, contents ≠ [] →
      (List.intercalate ['\n'] (contents.map encode)).splitOn '\n' = contents.map encode := by
    intro contents hne
    refine List.splitOn_intercalate '\n' ?_ (by simpa using hne)
    exact List.forall_mem_map.2 fun bytes _ => newline_not_mem bytes
  have hmap : others.map encode = contents.map encode := by
    rw [← hlines others hothers, h, hlines contents hcontents]
  exact encode_injective.list_map hmap

end Base64

namespace Compile

variable {ctx : Context} {nested : Document → Scope → Run Text} {d : Document} {scope : Scope}
  {specs : List Text} {paths : List Path} {contents : List Bytes}

/-- The files of a base64 include are read, and nothing else happens to them. -/
lemma loads_base64
    (h : List.Forall₂ (fun path bytes => ctx.store.read path = .ok bytes) paths contents) :
    Run.forEach (load ctx nested d scope true) paths
      = ⟨.ok (contents.map Base64.encode), paths.map .read⟩ := by
  have hloads : List.Forall₂ (fun path text =>
      (load ctx nested d scope true path).outcome = .ok text) paths
        (contents.map Base64.encode) := by
    refine List.forall₂_map_right_iff.2 (h.imp fun path bytes hread => ?_)
    exact Run.bind_eq_ok_iff.2 ⟨bytes, readFile_eq_ok_iff.2 hread, rfl⟩
  have hread : ∀ path, loading ctx nested d scope true path = [.read path] := fun _ => rfl
  rw [Run.forEach_of_ok hloads]
  simp only [load_events, hread, List.map_eq_flatMap]

/-- A base64 include succeeds if its files are found and can be read.  It leaves the standard base64
forms of their bytes, with a newline between them, so what it leaves says what the bytes are.  While
it is executed files are looked for and read, and that is all: it is the same whatever the encoding
of the settings is and however templates are compiled.  What it leaves stands in what any document
is compiled to in which it is executed. -/
theorem base64_inclusion (ctx : Context) (nested : Document → Scope → Run Text) (d : Document)
    (scope : Scope) (b : Block) (specs : List Text) (paths : List Path) (contents : List Bytes)
    (hspecial : b.isSpecial = true) (hdirective : b.directive = .inclusion specs true)
    (hne : specs ≠ []) (hnamed : [] ∉ specs)
    (hpaths : List.Forall₂ (fun spec path => (Include.resolve ctx d spec).outcome = .ok path)
      specs paths)
    (hcontents : List.Forall₂ (fun path bytes => ctx.store.read path = .ok bytes)
      paths contents) :
    let texts := contents.map Base64.encode
    block ctx nested d scope b =
        ⟨.ok (List.intercalate ['\n'] texts), scope,
          .noted (.executing (.inclusion specs true) b.start) ::
            (specs.flatMap (fun spec => (Include.resolve ctx d spec).events) ++
              paths.map .read)⟩ ∧
      List.Forall₂ Base64.IsForm texts contents ∧
      (∀ others : List Bytes, others ≠ [] →
        List.intercalate ['\n'] (others.map Base64.encode) = List.intercalate ['\n'] texts →
          others = contents) ∧
      ∀ initial compiled, Executes ctx nested d initial b scope →
        (documentWith ctx nested d initial).outcome = .ok compiled →
          List.intercalate ['\n'] texts <:+: compiled := by
  intro texts
  have hinclusion : inclusion ctx nested d scope specs true =
      ⟨.ok (List.intercalate ['\n'] texts),
        specs.flatMap (fun spec => (Include.resolve ctx d spec).events) ++ paths.map .read⟩ := by
    simp only [inclusion, Include.named_iff.2 ⟨hne, hnamed⟩, Bool.false_eq_true, if_false]
    rw [Run.forEach_of_ok hpaths, Run.bind_of_ok rfl, loads_base64 hcontents, Run.bind_of_ok rfl]
    exact congrArg (Run.mk _) (congrArg _ (List.append_nil _))
  have hnonempty : contents ≠ [] := by
    rintro rfl
    cases hcontents
    cases hpaths
    exact hne rfl
  have hblock : block ctx nested d scope b =
      ⟨.ok (List.intercalate ['\n'] texts), scope,
        .noted (.executing (.inclusion specs true) b.start) ::
          (specs.flatMap (fun spec => (Include.resolve ctx d spec).events) ++
            paths.map .read)⟩ := by
    rw [block_of_isSpecial hspecial]
    simp only [execute, hdirective, directive, hinclusion]
    rfl
  refine ⟨hblock, ?_, fun others hothers h => Base64.map_encode_inj hnonempty hothers h,
    fun initial compiled hexec hok => ?_⟩
  · exact List.forall₂_map_left_iff.2 (List.forall₂_same.2 fun bytes _ =>
      Base64.isForm_encode bytes)
  · obtain ⟨left, hleft, hinfix⟩ := hexec.exists_infix hok
    rw [hblock] at hleft
    exact Except.ok.inj hleft ▸ hinfix

/-- The beginning of a comment and a byte that is no text, in a template of a site whose encoding
does not exist. -/
theorem base64_inclusion_of_broken_template :
    let m : MemoryStore := ⟨[("/site/a.kit".toList, [0x3C, 0x21, 0x2D, 0x2D, 0xFF])], []⟩
    let ctx : Context := ⟨m.toStore, { encoding := "none".toList }, "/site".toList, Codec.builtIn⟩
    let d : Document :=
      { text := "<!--@include-base64 a-->".toList, file := "/site/index.kit".toList
        rootDir := "/site".toList, parents := [] }
    (block ctx (nestedIn ctx) d .empty ⟨0, d.text⟩).outcome = .ok "PCEtLf8=".toList ∧
      (document ctx d .empty).outcome = .ok "PCEtLf8=".toList := by
  intro m ctx d
  have hresolved : (Include.resolve ctx d "a".toList).outcome = .ok "/site/a.kit".toList := by
    decide +kernel
  obtain ⟨hblock, -⟩ := base64_inclusion ctx (nestedIn ctx) d .empty ⟨0, d.text⟩
    ["a".toList] ["/site/a.kit".toList] [[0x3C, 0x21, 0x2D, 0x2D, 0xFF]] (by decide) (by decide)
    (by decide) (by decide) (.cons hresolved .nil) (.cons rfl .nil)
  have hform : List.intercalate ['\n']
      ([[0x3C, 0x21, 0x2D, 0x2D, 0xFF]].map Base64.encode) = "PCEtLf8=".toList := by decide
  exact ⟨by rw [hblock, hform], by decide +kernel⟩

end Compile

end CommentMarkup
