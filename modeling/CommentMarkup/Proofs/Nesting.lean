/-
# Documents inside documents

While a document is compiled, an include of it may open another document, which is compiled
inside the first one.  `Opens` says when that happens, and `Descends` follows it through any
number of documents, noting where each of them is left for the next one.

A document fails by a failure of its own or by one of a document that it opens
(`within_succ_eq_error`, `error_of_opens`).  A failure of its own is a problem of one of its
directives, or what a file answers with that a directive asks for (`IsFresh`, `Refuses`).  So a run
is too deep only if documents are nested to its whole depth (`descends_of_tooDeep`), and a depth
that is enough once gives the same result as any greater one (`within_of_le`).
-/
import CommentMarkup.Proofs.Progress
import CommentMarkup.Proofs.Resolution

namespace CommentMarkup.Compile

/-- How the includes of a document are compiled when documents may still be nested to a given
depth. -/
def nestedWithin (ctx : Context) (depth : Nat) (d : Document) (scope : Scope) : Run Text :=
  (within ctx depth d scope).toRun

/-- A document that is to be compiled. -/
structure Call where
  /-- The depth to which documents may be nested, this one included. -/
  depth : Nat
  /-- The document. -/
  document : Document
  /-- The variables it begins with. -/
  scope : Scope

/-- A document that waits for one that its include has opened. -/
structure Frame where
  /-- The document. -/
  document : Document
  /-- The include. -/
  block : Block

/-- The place of the include. -/
def Frame.site (frame : Frame) : Site := siteOf frame.document frame.block.start

/-- Compiling a document opens another one: an include that is executed names only files that
are found, and the ones before this one have been loaded. -/
inductive Opens (ctx : Context) : Call → Block → Call → Prop where
  /-- One of the files of an include is a template. -/
  | intro {depth : Nat} {d : Document} {scope scope' : Scope} {b : Block} {specs texts : List Text}
      {before after : List Path} {path : Path} {bytes : Bytes} {text : Text}
      (executes : Executes ctx (nestedWithin ctx depth) d scope b scope')
      (names : b.directive = .inclusion specs false)
      (named : (specs.isEmpty || specs.any List.isEmpty) = false)
      (resolved : (Run.forEach (Include.resolve ctx d) specs).outcome
        = .ok (before ++ path :: after))
      (loaded : (Run.forEach (load ctx (nestedWithin ctx depth) d scope' false) before).outcome
        = .ok texts)
      (read : ctx.store.read path = .ok bytes)
      (decoded : (decode ctx bytes).outcome = .ok text)
      (template : ctx.settings.isTemplate path = true) :
      Opens ctx ⟨depth + 1, d, scope⟩ b ⟨depth, child ctx d path text, scope'⟩

/-- Compiling a document leads, through documents that each wait for the next one, to the
compilation of another one. -/
inductive Descends (ctx : Context) : Call → List Frame → Call → Prop where
  /-- It is the document itself. -/
  | here (c : Call) : Descends ctx c [] c
  /-- It is compiled inside a document that the first one opens. -/
  | into {c c' c'' : Call} {b : Block} {frames : List Frame} (opens : Opens ctx c b c')
      (h : Descends ctx c' frames c'') : Descends ctx c (⟨c.document, b⟩ :: frames) c''

/-- A file that an include directive asks for answers with a failure. -/
inductive Refuses (ctx : Context) (d : Document) (b : Block) : Failure → Prop where
  /-- The store does not say whether there is a file. -/
  | search {specs : List Text} {base64 : Bool} {spec : Text} {before : List Path} {path : Path}
      {fault : IoFault}
      (names : b.directive = .inclusion specs base64) (mem : spec ∈ specs)
      (refused : Include.StopsAt ctx.store (Include.candidates ctx.settings ctx.cwd d spec) before
        path (.error fault)) : Refuses ctx d b (.fault (.io fault))
  /-- The store does not give the bytes of a file. -/
  | read {specs : List Text} {base64 : Bool} {spec : Text} {path : Path} {fault : IoFault}
      (names : b.directive = .inclusion specs base64) (mem : spec ∈ specs)
      (resolved : (Include.resolve ctx d spec).outcome = .ok path)
      (refused : ctx.store.read path = .error fault) : Refuses ctx d b (.fault (.io fault))
  /-- The bytes of a file are not text. -/
  | decode {specs : List Text} {spec : Text} {path : Path} {bytes : Bytes} {codec : Codec}
      {fault : DecodeFault}
      (names : b.directive = .inclusion specs false) (mem : spec ∈ specs)
      (resolved : (Include.resolve ctx d spec).outcome = .ok path)
      (read : ctx.store.read path = .ok bytes) (nonempty : bytes ≠ [])
      (known : ctx.codec? = some codec) (refused : codec.decode bytes = .error (.refused fault)) :
      Refuses ctx d b (.fault (.undecodable fault))
  /-- The codec fails on the bytes of a file without pointing at any of them. -/
  | codec {specs : List Text} {spec : Text} {path : Path} {bytes : Bytes} {codec : Codec}
      {message : Text}
      (names : b.directive = .inclusion specs false) (mem : spec ∈ specs)
      (resolved : (Include.resolve ctx d spec).outcome = .ok path)
      (read : ctx.store.read path = .ok bytes) (nonempty : bytes ≠ [])
      (known : ctx.codec? = some codec) (broken : codec.decode bytes = .error (.broken message)) :
      Refuses ctx d b (.brokenCodec message)
  /-- A file has bytes, and the settings name no codec for them. -/
  | encoding {specs : List Text} {spec : Text} {path : Path} {bytes : Bytes}
      (names : b.directive = .inclusion specs false) (mem : spec ∈ specs)
      (resolved : (Include.resolve ctx d spec).outcome = .ok path)
      (read : ctx.store.read path = .ok bytes) (nonempty : bytes ≠ [])
      (unknown : ctx.codec? = none) :
      Refuses ctx d b (.unknownEncoding ctx.settings.encoding)

/-- A failure of a directive itself, which has no location yet. -/
inductive IsFresh (ctx : Context) (d : Document) (b : Block) : Failure → Prop where
  /-- Something is wrong with the document. -/
  | problem (p : Problem) : IsFresh ctx d b (.ofProblem p)
  /-- A file that the directive asks for answers with the failure. -/
  | refused {f : Failure} (h : Refuses ctx d b f) : IsFresh ctx d b f

variable {ctx : Context} {nested nested₁ nested₂ : Document → Scope → Run Text} {d : Document}
  {scope scope' : Scope} {b : Block} {f : Failure} {path : Path} {spec : Text} {specs : List Text}
  {base64 : Bool}

/-- What a file answers with is a fault or the failure of a codec, unless there is no codec. -/
lemma Refuses.kinds (h : Refuses ctx d b f) :
    (∃ fault, f = .fault fault) ∨ (∃ message, f = .brokenCodec message) ∨ ctx.codec? = none := by
  cases h with
  | search | read | decode => exact Or.inl ⟨_, rfl⟩
  | codec => exact Or.inr (Or.inl ⟨_, rfl⟩)
  | encoding _ _ _ _ _ unknown => exact Or.inr (Or.inr unknown)

lemma IsFresh.ne_tooDeep (h : IsFresh ctx d b f) : f ≠ .tooDeep := by
  cases h with
  | problem p => simp [Failure.ofProblem]
  | refused h => cases h <;> simp

/-! ### Loading a file -/

/-- A spec that does not resolve is a failure of the directive that names it. -/
lemma isFresh_of_resolve (hb : b.directive = .inclusion specs base64) (hmem : spec ∈ specs)
    (h : (Include.resolve ctx d spec).outcome = .error f) : IsFresh ctx d b f := by
  rcases Include.resolve_eq_error h with ⟨p, rfl⟩ | ⟨_, _, _, rfl, hstops⟩
  · exact .problem p
  · exact .refused (.search hb hmem hstops)

lemma isFresh_of_readFile (hb : b.directive = .inclusion specs base64) (hmem : spec ∈ specs)
    (hspec : (Include.resolve ctx d spec).outcome = .ok path)
    (h : (readFile ctx.store path).outcome = .error f) : IsFresh ctx d b f := by
  unfold readFile at h
  split at h
  · simp at h
  · next hread => exact Except.error.inj h ▸ .refused (.read hb hmem hspec hread)

lemma readFile_eq_ok_iff {bytes : Bytes} :
    (readFile ctx.store path).outcome = .ok bytes ↔ ctx.store.read path = .ok bytes := by
  unfold readFile
  cases ctx.store.read path <;> simp

/-- Bytes that are no text are a failure of the directive that loads them. -/
lemma isFresh_of_decode {bytes : Bytes} (hb : b.directive = .inclusion specs false)
    (hmem : spec ∈ specs) (hspec : (Include.resolve ctx d spec).outcome = .ok path)
    (hread : ctx.store.read path = .ok bytes) (h : (decode ctx bytes).outcome = .error f) :
    IsFresh ctx d b f := by
  unfold decode at h
  split at h
  · simp at h
  next hne =>
  split at h
  · next hnone => exact Except.error.inj h ▸ .refused (.encoding hb hmem hspec hread hne hnone)
  · next codec hcodec =>
    split at h
    · simp at h
    · next hrefused =>
      exact Except.error.inj h ▸ .refused (.decode hb hmem hspec hread hne hcodec hrefused)
    · next hbroken =>
      exact Except.error.inj h ▸ .refused (.codec hb hmem hspec hread hne hcodec hbroken)

/-- What a file leaves depends on the way includes are compiled only if it is a template. -/
lemma load_congr
    (h : ∀ bytes text, base64 = false → ctx.store.read path = .ok bytes →
      (decode ctx bytes).outcome = .ok text → ctx.settings.isTemplate path = true →
        nested₁ (child ctx d path text) scope = nested₂ (child ctx d path text) scope) :
    load ctx nested₁ d scope base64 path = load ctx nested₂ d scope base64 path := by
  refine Run.bind_congr fun bytes hbytes => ?_
  cases base64 with
  | true => rfl
  | false =>
    refine Run.bind_congr fun text htext => ?_
    cases ht : ctx.settings.isTemplate path with
    | false => rfl
    | true =>
      simp only [if_true]
      exact Run.bind_congr fun _ _ => h bytes text rfl (readFile_eq_ok_iff.1 hbytes) htext ht

/-- Loading a file fails if it cannot be read, if it is no text, or as the template does that
it holds. -/
lemma load_eq_error_iff :
    (load ctx nested d scope base64 path).outcome = .error f ↔
      (readFile ctx.store path).outcome = .error f ∨
        base64 = false ∧ ∃ bytes, ctx.store.read path = .ok bytes ∧
          ((decode ctx bytes).outcome = .error f ∨
            ∃ text, (decode ctx bytes).outcome = .ok text ∧
              ctx.settings.isTemplate path = true ∧
              (nested (child ctx d path text) scope).outcome = .error f) := by
  rw [load, Run.bind_eq_error_iff]
  refine or_congr Iff.rfl ?_
  cases base64 with
  | true => simp
  | false =>
    simp only [Bool.false_eq_true, if_false, Run.bind_eq_error_iff, readFile_eq_ok_iff,
      true_and]
    refine exists_congr fun bytes => and_congr Iff.rfl (or_congr Iff.rfl ?_)
    refine exists_congr fun text => and_congr Iff.rfl ?_
    cases ht : ctx.settings.isTemplate path with
    | false => simp
    | true => simp [Run.bind_eq_error_iff]

/-! ### Executing a directive -/

lemma inclusion_congr
    (h : ∀ before path after texts,
      (specs.isEmpty || specs.any List.isEmpty) = false →
      (Run.forEach (Include.resolve ctx d) specs).outcome = .ok (before ++ path :: after) →
      (Run.forEach (load ctx nested₁ d scope base64) before).outcome = .ok texts →
        load ctx nested₁ d scope base64 path = load ctx nested₂ d scope base64 path) :
    inclusion ctx nested₁ d scope specs base64 = inclusion ctx nested₂ d scope specs base64 := by
  unfold inclusion
  cases hs : (specs.isEmpty || specs.any List.isEmpty) with
  | true => rfl
  | false =>
    simp only [Bool.false_eq_true, if_false]
    refine Run.bind_congr fun paths hpaths => ?_
    rw [Run.forEach_congr fun before path after heq ⟨texts, htexts⟩ =>
      h before path after texts hs (heq ▸ hpaths) htexts]

/-- An include directive fails for a spec that names nothing, for one that does not resolve,
or as the first file does that cannot be loaded. -/
lemma inclusion_eq_error_iff :
    (inclusion ctx nested d scope specs base64).outcome = .error f ↔
      (specs.isEmpty || specs.any List.isEmpty) = true ∧ f = .ofProblem (.includeNotFound []) ∨
        (specs.isEmpty || specs.any List.isEmpty) = false ∧
          ((Run.forEach (Include.resolve ctx d) specs).outcome = .error f ∨
            ∃ before path after texts,
              (Run.forEach (Include.resolve ctx d) specs).outcome
                = .ok (before ++ path :: after) ∧
              (Run.forEach (load ctx nested d scope base64) before).outcome = .ok texts ∧
              (load ctx nested d scope base64 path).outcome = .error f) := by
  unfold inclusion
  cases hs : (specs.isEmpty || specs.any List.isEmpty) with
  | true => simp [eq_comm]
  | false =>
    simp only [Bool.false_eq_true, if_false, Run.bind_eq_error_iff, false_and, false_or, true_and]
    refine or_congr Iff.rfl ?_
    simp only [Run.forEach_eq_error_iff, Run.outcome_pure, reduceCtorEq, and_false, exists_false,
      or_false]
    constructor
    · rintro ⟨paths, hpaths, before, path, after, rfl, ⟨texts, htexts⟩, hf⟩
      exact ⟨before, path, after, texts, hpaths, htexts, hf⟩
    · rintro ⟨before, path, after, texts, hpaths, htexts, hf⟩
      exact ⟨_, hpaths, before, path, after, rfl, ⟨texts, htexts⟩, hf⟩

lemma execute_outcome (b : Block) :
    (execute ctx nested d scope b).outcome = (directive ctx nested d scope b.directive).outcome :=
  rfl

lemma execute_congr
    (h : ∀ specs base64, b.directive = .inclusion specs base64 →
      inclusion ctx nested₁ d scope specs base64 = inclusion ctx nested₂ d scope specs base64) :
    execute ctx nested₁ d scope b = execute ctx nested₂ d scope b := by
  unfold execute
  cases hb : b.directive with
  | inclusion specs base64 => simp [directive, h specs base64 hb]
  | definition name value => rfl
  | reference name optional => rfl
  | compilation => rfl

/-- A directive that fails is an include, unless something is wrong with the document. -/
lemma execute_eq_error (h : (execute ctx nested d scope b).outcome = .error f) :
    (∃ p, f = .ofProblem p) ∨ ∃ specs base64, b.directive = .inclusion specs base64 ∧
      (inclusion ctx nested d scope specs base64).outcome = .error f := by
  rw [execute_outcome] at h
  cases hb : b.directive with
  | inclusion specs base64 =>
    rw [hb] at h
    exact Or.inr ⟨specs, base64, rfl, h⟩
  | definition name value => simp [hb, directive] at h
  | compilation =>
    rw [hb] at h
    exact Or.inl ⟨_, (Except.error.inj h).symm⟩
  | reference name optional =>
    rw [hb] at h
    simp only [directive] at h
    split at h
    · simp at h
    · exact Or.inl ⟨_, (Except.error.inj h).symm⟩

/-- A directive that fails in a document does so by itself, or as a document that it opens. -/
lemma execute_eq_error_of_executes {depth : Nat}
    (hexec : Executes ctx (nestedWithin ctx depth) d scope b scope')
    (h : (execute ctx (nestedWithin ctx depth) d scope' b).outcome = .error f) :
    IsFresh ctx d b f ∨ ∃ d', Opens ctx ⟨depth + 1, d, scope⟩ b ⟨depth, d', scope'⟩ ∧
      (within ctx depth d' scope').outcome = .error f := by
  rcases execute_eq_error h with ⟨p, rfl⟩ | ⟨specs, base64, hb, h⟩
  · exact Or.inl (.problem p)
  · rcases inclusion_eq_error_iff.1 h with ⟨-, rfl⟩ | ⟨hs, h | h⟩
    · exact Or.inl (.problem _)
    · obtain ⟨before, spec, after, rfl, -, h⟩ := Run.forEach_eq_error_iff.1 h
      exact Or.inl (isFresh_of_resolve hb (by simp) h)
    · obtain ⟨before, path, after, texts, hpaths, htexts, h⟩ := h
      obtain ⟨spec, hmem, hspec⟩ := Run.exists_of_mem_forEach hpaths
        (List.mem_append_right before List.mem_cons_self)
      rcases load_eq_error_iff.1 h with h | ⟨rfl, bytes, hbytes, h | ⟨text, htext, ht, h⟩⟩
      · exact Or.inl (isFresh_of_readFile hb hmem hspec h)
      · exact Or.inl (isFresh_of_decode hb hmem hspec hbytes h)
      · exact Or.inr ⟨_, .intro hexec hb hs hpaths htexts hbytes htext ht, h⟩

/-! ### Failures go through -/

/-- A document fails because one of its comments is never closed, because one of its directives
fails by itself, or because a document that it opens fails. -/
theorem within_succ_eq_error {depth : Nat}
    (h : (within ctx (depth + 1) d scope).outcome = .error f) :
    (∃ offset, Block.scan d.text = .error offset ∧ f = .diagnosed (unterminated d offset)) ∨
      (∃ b scope' f₀, Executes ctx (nestedWithin ctx depth) d scope b scope' ∧
        (execute ctx (nestedWithin ctx depth) d scope' b).outcome = .error f₀ ∧
        IsFresh ctx d b f₀ ∧ f = f₀.leaving (siteOf d b.start)) ∨
      ∃ b d' scope' f₀, Opens ctx ⟨depth + 1, d, scope⟩ b ⟨depth, d', scope'⟩ ∧
        (within ctx depth d' scope').outcome = .error f₀ ∧
        f = f₀.leaving (siteOf d b.start) := by
  rcases documentWith_eq_error_iff.1 h with h | ⟨b, scope', f₀, hexec, hf₀, rfl⟩
  · exact Or.inl h
  · rcases execute_eq_error_of_executes hexec hf₀ with hfresh | ⟨d', hopens, hf⟩
    · exact Or.inr (Or.inl ⟨b, scope', f₀, hexec, hf₀, hfresh, rfl⟩)
    · exact Or.inr (Or.inr ⟨b, d', scope', f₀, hopens, hf, rfl⟩)

/-- If a file cannot be loaded that an include comes to, its document fails as the file does. -/
lemma within_eq_error_of_load {depth : Nat} {before after : List Path} {texts : List Text}
    (hexec : Executes ctx (nestedWithin ctx depth) d scope b scope')
    (hb : b.directive = .inclusion specs base64)
    (hs : (specs.isEmpty || specs.any List.isEmpty) = false)
    (hpaths : (Run.forEach (Include.resolve ctx d) specs).outcome = .ok (before ++ path :: after))
    (htexts : (Run.forEach (load ctx (nestedWithin ctx depth) d scope' base64) before).outcome
      = .ok texts)
    (hload : (load ctx (nestedWithin ctx depth) d scope' base64 path).outcome = .error f) :
    (within ctx (depth + 1) d scope).outcome = .error (f.leaving (siteOf d b.start)) := by
  refine documentWith_eq_error_iff.2 (Or.inr ⟨b, scope', f, hexec, ?_, rfl⟩)
  rw [execute_outcome, hb]
  exact inclusion_eq_error_iff.2
    (Or.inr ⟨hs, Or.inr ⟨before, path, after, texts, hpaths, htexts, hload⟩⟩)

/-- If a document fails that another one opens, the other one fails as well. -/
theorem error_of_opens {c c' : Call} (hopens : Opens ctx c b c')
    (hf : (within ctx c'.depth c'.document c'.scope).outcome = .error f) :
    (within ctx c.depth c.document c.scope).outcome
      = .error (f.leaving (siteOf c.document b.start)) := by
  obtain ⟨hexec, hb, hs, hpaths, htexts, hbytes, htext, ht⟩ := hopens
  have hload : (load ctx (nestedWithin ctx _) _ _ false _).outcome = .error f :=
    load_eq_error_iff.2 (Or.inr ⟨rfl, _, hbytes, Or.inr ⟨_, htext, ht, hf⟩⟩)
  exact within_eq_error_of_load hexec hb hs hpaths htexts hload

/-- A problem leaves a directive with a location, and is the same problem. -/
lemma leaving_diagnosed (diagnostic : Diagnostic) (site : Site) :
    ∃ left : Diagnostic, (Failure.diagnosed diagnostic).leaving site = .diagnosed left ∧
      left.isLocated = true ∧ left.report.problem = diagnostic.report.problem := by
  refine ⟨_, rfl, ?_⟩
  cases hlocated : diagnostic.isLocated with
  | true => exact ⟨hlocated, rfl⟩
  | false =>
    simp only [Bool.false_eq_true, if_false, Diagnostic.locate, hlocated]
    cases diagnostic <;> exact ⟨rfl, rfl⟩

lemma leaving_eq_tooDeep_iff {site : Site} : f.leaving site = .tooDeep ↔ f = .tooDeep := by
  cases f <;> simp [Failure.leaving]

lemma leaving_ne_tooDeep_of_isFresh {site : Site} (h : IsFresh ctx d b f) :
    f.leaving site ≠ .tooDeep := by
  rw [ne_eq, leaving_eq_tooDeep_iff]
  exact h.ne_tooDeep

/-- A run is too deep only if documents are nested to its whole depth. -/
theorem descends_of_tooDeep {depth : Nat}
    (h : (within ctx depth d scope).outcome = .error .tooDeep) :
    ∃ frames c, Descends ctx ⟨depth, d, scope⟩ frames c ∧ frames.length = depth := by
  induction depth generalizing d scope with
  | zero => exact ⟨[], _, .here _, rfl⟩
  | succ depth ih =>
    rcases within_succ_eq_error h with ⟨offset, -, h⟩ | ⟨b, scope', f₀, -, -, hfresh, h⟩ |
      ⟨b, d', scope', f₀, hopens, hf, h⟩
    · simp at h
    · exact absurd h.symm (leaving_ne_tooDeep_of_isFresh hfresh)
    · rw [leaving_eq_tooDeep_iff.1 h.symm] at hf
      obtain ⟨frames, c, hdescends, hlength⟩ := ih hf
      exact ⟨_, c, .into hopens hdescends, by simp [hlength]⟩

/-! ### Depths that are enough -/

/-- A document is compiled alike at two depths if the documents that it opens are. -/
lemma within_succ_congr {n m : Nat}
    (h : ∀ b d' scope', Opens ctx ⟨n + 1, d, scope⟩ b ⟨n, d', scope'⟩ →
      within ctx n d' scope' = within ctx m d' scope') :
    within ctx (n + 1) d scope = within ctx (m + 1) d scope := by
  show documentWith ctx (nestedWithin ctx n) d scope
    = documentWith ctx (nestedWithin ctx m) d scope
  refine documentWith_congr fun b scope' hexec => ?_
  refine execute_congr fun specs base64 hb => ?_
  refine inclusion_congr fun before path after texts hs hpaths htexts => ?_
  refine load_congr fun bytes text hbase64 hbytes htext ht => ?_
  subst hbase64
  rw [nestedWithin, nestedWithin,
    h b _ scope' (.intro hexec hb hs hpaths htexts hbytes htext ht)]

/-- A depth that is enough gives the same result as any greater one. -/
theorem within_of_le {n m : Nat} (hnm : n ≤ m)
    (h : (within ctx n d scope).outcome ≠ .error .tooDeep) :
    within ctx m d scope = within ctx n d scope := by
  induction n generalizing m d scope with
  | zero => exact absurd rfl h
  | succ n ih =>
    obtain ⟨m, rfl⟩ : ∃ k, m = k + 1 := ⟨m - 1, by omega⟩
    refine (within_succ_congr fun b d' scope' hopens => ?_).symm
    refine (ih (by omega) fun hf => h ?_).symm
    exact error_of_opens hopens hf

/-! ### The documents on the way -/

/-- What is opened holds the text of a template that a spec resolves to. -/
lemma Opens.exists_child {c c' : Call} (h : Opens ctx c b c') :
    ∃ spec path text, (Include.resolve ctx c.document spec).outcome = .ok path ∧
      ctx.settings.isTemplate path = true ∧ c'.document = child ctx c.document path text := by
  obtain ⟨-, -, -, hpaths, -, -, -, ht⟩ := h
  obtain ⟨spec, -, hspec⟩ := Run.exists_of_mem_forEach hpaths
    (List.mem_append_right _ List.mem_cons_self)
  exact ⟨spec, _, _, hspec, ht, rfl⟩

/-- What holds of a document and of every document that is opened by one of which it holds,
holds of all documents on the way. -/
lemma Descends.induct {P : Document → Prop} {c c' : Call} {frames : List Frame}
    (hdescends : Descends ctx c frames c') (hc : P c.document)
    (hopens : ∀ c b c', Opens ctx c b c' → P c.document → P c'.document) : P c'.document := by
  induction hdescends with
  | here c => exact hc
  | into h _ ih => exact ih (hopens _ _ _ h hc)

end CommentMarkup.Compile
