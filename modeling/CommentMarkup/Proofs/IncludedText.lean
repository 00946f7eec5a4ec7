/-
# The text of an included file

An include puts the text of a file where it stands, and nothing on the way there changes the text.
The bytes of the file are decoded, and bytes are decoded to a text exactly if they are what is
written for it; a file that is no template is left as it is then, and a template without
directives compiles to its own text.  Bytes that are no text stop the include: the failure is
located at it, and has the refusal of the decoder behind it (`included_text`).

What is said here of one file holds wherever the file stands in the list of an include, and
wherever the include stands in a document (`Arrival`).
-/
import CommentMarkup.Proofs.Utf8
import CommentMarkup.Proofs.FewerAncestors
import CommentMarkup.Proofs.Output

namespace CommentMarkup.Compile

/-- An include that is executed in a document has come to one of its files: all files that it
names are found, and the ones before this one have been loaded. -/
structure Arrival (ctx : Context) (depth : Nat) (d : Document) (initial : Scope) where
  /-- The include. -/
  block : Block
  /-- The variables at the include. -/
  scope : Scope
  /-- The files as the include names them. -/
  specs : List Text
  /-- The files before this one. -/
  before : List Path
  /-- What these leave. -/
  texts : List Text
  /-- The file. -/
  path : Path
  /-- The files behind it. -/
  after : List Path
  executes : Executes ctx (nestedWithin ctx depth) d initial block scope
  names : block.directive = .inclusion specs false
  named : (specs.isEmpty || specs.any List.isEmpty) = false
  resolved : (Run.forEach (Include.resolve ctx d) specs).outcome = .ok (before ++ path :: after)
  loaded : (Run.forEach (load ctx (nestedWithin ctx depth) d scope false) before).outcome
    = .ok texts

namespace Arrival

variable {ctx : Context} {depth : Nat} {d : Document} {initial : Scope}
  (a : Arrival ctx depth d initial) {text content : Text} {f : Failure} {bytes : Bytes}

/-- How the include loads its files. -/
def loadHere : Path → Run Text := load ctx (nestedWithin ctx depth) d a.scope false

/-- What the include leaves if this file leaves a text and the ones behind it leave some. -/
def splice (content : Text) (later : List Text) : Text :=
  List.intercalate ['\n'] (a.texts ++ content :: later)

/-- The include leaves for this file exactly a text.  It succeeds if the files behind this one
do; and if the whole document is compiled, then what the include leaves stands in what the
document is compiled to. -/
def Leaves (content : Text) : Prop :=
  (∀ text, (Compile.block ctx (nestedWithin ctx depth) d a.scope a.block).outcome = .ok text ↔
    ∃ later, (Run.forEach a.loadHere a.after).outcome = .ok later ∧ text = a.splice content later) ∧
  ∀ text, (within ctx (depth + 1) d initial).outcome = .ok text →
    ∃ later, (Run.forEach a.loadHere a.after).outcome = .ok later ∧ a.splice content later <:+: text

/-- The document fails at the include: the failure is located there, and has been caused by a
refusal to decode. -/
def Undecodable (fault : DecodeFault) : Prop :=
  ∃ diagnostic, (within ctx (depth + 1) d initial).outcome = .error (.diagnosed diagnostic) ∧
    diagnostic.report =
      { problem := .general fault.message
        file := some d.file
        line := some (Position.ofOffset d.text a.block.start).line
        column := some (Position.ofOffset d.text a.block.start).column
        trace := [] } ∧
    diagnostic.causes = [.fault (.undecodable fault)]

/-! ### From the file to the document -/

lemma block_eq_ok_iff (h : (a.loadHere a.path).outcome = .ok content) :
    (Compile.block ctx (nestedWithin ctx depth) d a.scope a.block).outcome = .ok text ↔
      ∃ later, (Run.forEach a.loadHere a.after).outcome = .ok later ∧
        text = a.splice content later := by
  have hinclusion : (Compile.block ctx (nestedWithin ctx depth) d a.scope a.block).outcome
      = .ok text ↔ ∃ texts, (Run.forEach a.loadHere (a.before ++ a.path :: a.after)).outcome
        = .ok texts ∧ List.intercalate ['\n'] texts = text := by
    rw [Compile.block_eq_ok_iff a.executes.1, execute_outcome, a.names]
    simp only [directive, Compilation.ofRun, inclusion, a.named, Bool.false_eq_true, if_false,
      Run.bind_eq_ok_iff, a.resolved, Except.ok.injEq, exists_eq_left', Run.outcome_pure]
    rfl
  rw [hinclusion]
  constructor
  · rintro ⟨_, hall, rfl⟩
    obtain ⟨texts, _, htexts, hrest, rfl⟩ := Run.forEach_append_eq_ok_iff.1 hall
    obtain ⟨content', later, hcontent, hlater, rfl⟩ := Run.forEach_cons_eq_ok_iff.1 hrest
    obtain rfl := Except.ok.inj (a.loaded.symm.trans htexts)
    obtain rfl := Except.ok.inj (h.symm.trans hcontent)
    exact ⟨later, hlater, rfl⟩
  · rintro ⟨later, hlater, rfl⟩
    exact ⟨_, Run.forEach_append_eq_ok_iff.2 ⟨a.texts, content :: later, a.loaded,
      Run.forEach_cons_eq_ok_iff.2 ⟨content, later, h, hlater, rfl⟩, rfl⟩, rfl⟩

lemma leaves (h : (a.loadHere a.path).outcome = .ok content) : a.Leaves content := by
  refine ⟨fun text => a.block_eq_ok_iff h, fun text hdocument => ?_⟩
  obtain ⟨left, hleft, hinfix⟩ := a.executes.exists_infix hdocument
  obtain ⟨later, hlater, rfl⟩ := (a.block_eq_ok_iff h).1 hleft
  exact ⟨later, hlater, hinfix⟩

/-- An include of one file leaves nothing but what it leaves for this file. -/
lemma Leaves.block_eq_ok {a : Arrival ctx depth d initial} (h : a.Leaves content) {spec : Text}
    (hspecs : a.specs = [spec]) :
    (Compile.block ctx (nestedWithin ctx depth) d a.scope a.block).outcome = .ok content := by
  have hlength : [spec].length = (a.before ++ a.path :: a.after).length := by
    rw [← hspecs]
    exact (Run.forEach_eq_ok_iff.1 a.resolved).length_eq
  simp only [List.length_cons, List.length_nil, List.length_append] at hlength
  have hbefore : a.before = [] := List.length_eq_zero_iff.1 (by omega)
  have hafter : a.after = [] := List.length_eq_zero_iff.1 (by omega)
  have htexts := a.loaded
  rw [hbefore] at htexts
  obtain htexts : [] = a.texts := Except.ok.inj htexts
  refine (h.1 content).2 ⟨[], by rw [hafter]; rfl, ?_⟩
  rw [splice, ← htexts, List.nil_append, List.intercalate_singleton]

lemma within_eq_error (h : (a.loadHere a.path).outcome = .error f) :
    (within ctx (depth + 1) d initial).outcome
      = .error (f.leaving (siteOf d a.block.start)) :=
  within_eq_error_of_load a.executes a.names a.named a.resolved a.loaded h

/-! ### From the bytes to the file -/

/-- Files in UTF-8 are decoded by its decoder, also empty ones. -/
lemma decode_outcome (hcodec : ctx.codec? = some (.ofEncoding .utf8)) (bytes : Bytes) :
    (decode ctx bytes).outcome
      = (Encoding.decodeUtf8 0 bytes).mapError fun fault => .fault (.undecodable fault) := by
  by_cases hbytes : bytes = []
  · subst hbytes
    rw [Encoding.decodeUtf8]
    rfl
  · simp only [decode, hbytes, if_false, hcodec, Codec.ofEncoding, Encoding.decode]
    cases Encoding.decodeUtf8 0 bytes <;> rfl

lemma decode_eq_ok (hcodec : ctx.codec? = some (.ofEncoding .utf8)) (content : Text) :
    (decode ctx (Encoding.utf8Bytes content)).outcome = .ok content := by
  rw [decode_outcome hcodec, Encoding.decodeUtf8_utf8Bytes]
  rfl

/-- A file that is no template is left as it is. -/
lemma load_of_not_isTemplate (hcontent : (decode ctx bytes).outcome = .ok content)
    (hread : ctx.store.read a.path = .ok bytes) (h : ctx.settings.isTemplate a.path = false) :
    (a.loadHere a.path).outcome = .ok content := by
  simp only [loadHere, load, Run.bind_eq_ok_iff, readFile_eq_ok_iff, Bool.false_eq_true,
    if_false, h]
  exact ⟨bytes, hread, content, hcontent, rfl⟩

/-- A template without directives is left as it is. -/
lemma load_of_isTemplate (hcontent : (decode ctx bytes).outcome = .ok content)
    (hread : ctx.store.read a.path = .ok bytes) (h : ctx.settings.isTemplate a.path = true)
    (hdepth : 0 < depth) {bs : List Block} (hscan : Block.scan content = .ok bs)
    (hbs : ∀ b ∈ bs, b.isSpecial = false) : (a.loadHere a.path).outcome = .ok content := by
  obtain ⟨depth, rfl⟩ := Nat.exists_eq_succ_of_ne_zero hdepth.ne'
  refine (load_template_eq_ok_iff h).2 ⟨bytes, content, hread, hcontent, ?_⟩
  have hchild : Block.scan (child ctx d a.path content).text = .ok bs := hscan
  have hcopied : ((Cursor.mk none bs a.scope).compile ctx (nestedWithin ctx depth)
      (child ctx d a.path content)).outcome = .ok content := by
    rw [compile_of_not_isSpecial rfl hbs, Block.flatMap_data_of_scan hscan]
  exact (documentWith_of_scan_ok hchild).1.trans hcopied

lemma load_of_not_decode {fault : DecodeFault}
    (hcodec : ctx.codec? = some (.ofEncoding .utf8))
    (hread : ctx.store.read a.path = .ok bytes)
    (h : Encoding.decodeUtf8 0 bytes = .error fault) :
    (a.loadHere a.path).outcome = .error (.fault (.undecodable fault)) := by
  refine load_eq_error_iff.2 (Or.inr ⟨rfl, bytes, hread, Or.inl ?_⟩)
  rw [decode_outcome hcodec, h]
  rfl

end Arrival

/-- What an include leaves for a file, when the codec of the settings is that of UTF-8.

For the bytes of a text it leaves exactly this text, if the file is no template, or is one whose
text can be scanned and has no directive; there must be room for one more document then.  These are
the well-formed sequences of bytes.  Any other bytes stop the compilation at the include, and what
the decoder refuses is the cause.  An include of this file alone leaves nothing else. -/
theorem included_text (ctx : Context) (depth : Nat) (d : Document) (initial : Scope)
    (a : Arrival ctx depth d initial) (bytes : Bytes)
    (hcodec : ctx.codec? = some (.ofEncoding .utf8))
    (hread : ctx.store.read a.path = .ok bytes) :
    (∀ content, Encoding.utf8Bytes content = bytes →
      (ctx.settings.isTemplate a.path = false → a.Leaves content) ∧
      (ctx.settings.isTemplate a.path = true → 0 < depth → ∀ bs, Block.scan content = .ok bs →
        (∀ b ∈ bs, b.isSpecial = false) → a.Leaves content)) ∧
      (Encoding.IsWellFormed bytes → ∃! content, Encoding.utf8Bytes content = bytes) ∧
      (¬ Encoding.IsWellFormed bytes →
        ∃ fault, Encoding.decodeUtf8 0 bytes = .error fault ∧ a.Undecodable fault) ∧
      ∀ spec content, a.specs = [spec] → a.Leaves content →
        (block ctx (nestedWithin ctx depth) d a.scope a.block).outcome = .ok content := by
  refine ⟨?_, fun hbytes => ?_, fun hbytes => ?_, fun _ _ hspecs h => h.block_eq_ok hspecs⟩
  · rintro content rfl
    have hcontent := Arrival.decode_eq_ok hcodec content
    exact ⟨fun h => a.leaves (a.load_of_not_isTemplate hcontent hread h),
      fun h hdepth bs hscan hbs =>
        a.leaves (a.load_of_isTemplate hcontent hread h hdepth hscan hbs)⟩
  · obtain ⟨content, hcontent⟩ := Encoding.exists_decodeUtf8_iff.2 hbytes
    refine ⟨content, Encoding.decodeUtf8_eq_ok_iff.1 hcontent, fun other hother => ?_⟩
    have hother : Encoding.decodeUtf8 0 bytes = .ok other :=
      Encoding.decodeUtf8_eq_ok_iff.2 hother
    exact Except.ok.inj (hother.symm.trans hcontent)
  · cases hdecode : Encoding.decodeUtf8 0 bytes with
    | ok content => exact absurd (Encoding.exists_decodeUtf8_iff.1 ⟨content, hdecode⟩) hbytes
    | error fault =>
      exact ⟨fault, rfl, _, a.within_eq_error (a.load_of_not_decode hcodec hread hdecode), rfl, rfl⟩

/-- A file with a byte order mark and a carriage return but without a newline at its end, a template
that holds a comment, and a file with a slash that is written with two bytes. -/
theorem included_text_of_byte_order_mark :
    let raw : Text := "\uFEFFé\r\n漢\r".toList
    let template : Text := "<!-- 😀 -->\r".toList
    let m : MemoryStore :=
      ⟨[("/site/a.txt".toList, Encoding.utf8Bytes raw),
        ("/site/b.kit".toList, Encoding.utf8Bytes template),
        ("/site/c.txt".toList, [0x61, 0xC0, 0xAF])], []⟩
    let ctx : Context := ⟨m.toStore, {}, "/site".toList, Codec.builtIn⟩
    let depth := depthBound ctx.store
    let d (text : Text) : Document :=
      { text := text, file := "/site/index.kit".toList, rootDir := "/site".toList, parents := [] }
    let both := d "<!--@include a.txt, b-->".toList
    let broken := d "<!--@include c.txt-->".toList
    (∃ a : Arrival ctx depth both .empty, a.path = "/site/a.txt".toList ∧ a.Leaves raw) ∧
      (∃ a : Arrival ctx depth both .empty, a.path = "/site/b.kit".toList ∧ a.Leaves template) ∧
      (document ctx both .empty).outcome = .ok (raw ++ '\n' :: template) ∧
      ∃ a : Arrival ctx depth broken .empty, a.path = "/site/c.txt".toList ∧
        a.Undecodable ⟨"utf-8".toList, 1, [0xC0], .invalidStart⟩ := by
  intro raw template m ctx depth d both broken
  have hboth : Executes ctx (nestedWithin ctx depth) both .empty ⟨0, both.text⟩ .empty :=
    ⟨by decide, [⟨0, both.text⟩], _, _, _, _, by decide +kernel, .here _, by decide⟩
  have hbroken : Executes ctx (nestedWithin ctx depth) broken .empty ⟨0, broken.text⟩ .empty :=
    ⟨by decide, [⟨0, broken.text⟩], _, _, _, _, by decide +kernel, .here _, by decide⟩
  have hresolved : (Run.forEach (Include.resolve ctx both) ["a.txt".toList, "b".toList]).outcome
      = .ok ["/site/a.txt".toList, "/site/b.kit".toList] := by decide +kernel
  let first : Arrival ctx depth both .empty :=
    { block := _, scope := _, specs := _, before := [], texts := [], path := _, after := _
      executes := hboth, names := by decide, named := by decide, resolved := hresolved
      loaded := rfl }
  let second : Arrival ctx depth both .empty :=
    { block := _, scope := _, specs := _, before := ["/site/a.txt".toList], texts := [raw]
      path := _, after := [], executes := hboth, names := by decide, named := by decide
      resolved := hresolved, loaded := by decide +kernel }
  let overlong : Arrival ctx depth broken .empty :=
    { block := _, scope := _, specs := ["c.txt".toList], before := [], texts := []
      path := "/site/c.txt".toList, after := [], executes := hbroken, names := by decide
      named := by decide, resolved := by decide +kernel, loaded := rfl }
  have hscan : Block.scan template = .ok [⟨0, "<!-- 😀 -->".toList⟩, ⟨10, "\r".toList⟩] := by
    decide +kernel
  have hrefused : Encoding.decodeUtf8 0 [0x61, 0xC0, 0xAF]
      = .error ⟨"utf-8".toList, 1, [0xC0], .invalidStart⟩ := by decide +kernel
  have hill : ¬ Encoding.IsWellFormed [0x61, 0xC0, 0xAF] := by
    intro h
    obtain ⟨text, htext⟩ := Encoding.exists_decodeUtf8_iff.2 h
    exact absurd (htext.symm.trans hrefused) (by simp)
  have hraw : ctx.settings.isTemplate "/site/a.txt".toList = false := by decide
  have htemplate : ctx.settings.isTemplate "/site/b.kit".toList = true := by decide
  refine ⟨⟨first, rfl, ?_⟩, ⟨second, rfl, ?_⟩, by decide +kernel, overlong, rfl, ?_⟩
  · exact ((included_text ctx depth both .empty first _ rfl rfl).1 raw rfl).1 hraw
  · exact ((included_text ctx depth both .empty second _ rfl rfl).1 template rfl).2
      htemplate (by decide) _ hscan (by decide)
  · obtain ⟨fault, hfault, hstops⟩ :=
      (included_text ctx depth broken .empty overlong _ rfl rfl).2.2.1 hill
    obtain rfl := Except.error.inj (hfault.symm.trans hrefused)
    exact hstops

end CommentMarkup.Compile
