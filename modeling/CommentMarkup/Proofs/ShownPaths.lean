/-
# Paths as diagnostics show them

A diagnostic shows a path as it is written from the root directory of the site: it goes up from the
root as far as to the directory that the two have in common, and from there down to the goal.  Read
from the root again, it leads to the same place, whatever the two paths are: the ways up take away
what the root has of its own, and no way up is left in the goal (`absolute_join_relativeTo_iff`).

Only how the paths begin is not shown.  A root that is written with exactly two separators is kept
apart from the one written with one, so where one of the paths begins so and the other does not, the
shown path leads to the same components under the other root.

A recursive include shows two paths, that of the including document and that of the document further
up which it names (`recursiveInclude_names`).
-/
import CommentMarkup.Proofs.CandidateSearch
import CommentMarkup.Proofs.Path.Inside

namespace CommentMarkup

namespace Path

variable {as bs cs reversed : List Text} {base cwd p q start : Path} {n : Nat}

/-! ### The common beginning -/

lemma commonLength_le (as bs : List Text) : commonLength as bs ≤ as.length := by
  fun_induction commonLength as bs with
  | case1 as b bs ih => simpa using ih
  | case2 | case3 => exact Nat.zero_le _

lemma take_commonLength (as bs : List Text) :
    as.take (commonLength as bs) = bs.take (commonLength as bs) := by
  fun_induction commonLength as bs with
  | case1 as b bs ih => rw [List.take_succ_cons, List.take_succ_cons, ih]
  | case2 | case3 => rfl

/-! ### Up and down again -/

/-- Each way up takes away a component. -/
lemma foldl_climb_replicate (hr : above ∉ reversed) (n : Nat) :
    (List.replicate n above).foldl (climb true) reversed = reversed.drop n := by
  induction n generalizing reversed with
  | zero => rfl
  | succ n ih =>
    rw [List.replicate_succ, List.foldl_cons]
    cases reversed with
    | nil => simpa [climb] using ih List.not_mem_nil
    | cons last before =>
      rw [List.mem_cons, not_or] at hr
      simpa [climb, Ne.symm hr.1] using ih hr.2

/-- What is left of some components, when ways up follow them and other components those. -/
lemma reduce_append_replicate (has : AreParts as) (hcs : above ∉ cs) (n : Nat) :
    reduce true (as ++ (List.replicate n above ++ cs))
      = (reduce true as).take ((reduce true as).length - n) ++ cs := by
  have hleft : above ∉ as.foldl (climb true) [] := fun hmem =>
    above_not_mem_of_proper (reduce_proper has) (List.mem_reverse.2 hmem)
  rw [reduce, List.foldl_append, List.foldl_append, foldl_climb_replicate hleft,
    foldl_climb_of_not_mem hcs, List.reverse_append, List.reverse_reverse, List.reverse_drop,
    reduce, List.length_reverse]

/-! ### Reading a relative path -/

lemma areParts_replicate_above (n : Nat) : AreParts (List.replicate n above) := by
  intro c hc
  rw [List.eq_of_mem_replicate hc]
  decide

lemma areParts_upAndDown (n m : Nat) (p : Path) :
    AreParts (List.replicate n above ++ (components p).drop m) := by
  intro c hc
  rcases List.mem_append.1 hc with hc | hc
  · exact areParts_replicate_above n c hc
  · exact areParts_components p c (List.mem_of_mem_drop hc)

lemma isAbsolute_relativeTo (cwd start p : Path) : isAbsolute (relativeTo cwd start p) = false :=
  isAbsolute_relative (areParts_upAndDown _ _ _).ne_nil_and_not_mem

/-- What is read from a base directory goes through that directory, wherever it is read. -/
lemma components_join_join (hp : isAbsolute p = false) (hbase : base ≠ []) :
    components (join cwd (join base p)) = components (join cwd base) ++ components p := by
  have hjoin := isAbsolute_join_of_relative hbase hp
  cases habsolute : isAbsolute base with
  | true =>
    rw [join, if_pos (hjoin.trans habsolute), join.eq_1 cwd, if_pos habsolute, components_join hp]
  | false =>
    rw [components_join (hjoin.trans habsolute), components_join habsolute, components_join hp,
      List.append_assoc]

lemma anchor_join_join (hcwd : isAbsolute cwd = true) (hp : isAbsolute p = false)
    (hbase : base ≠ []) : anchor (join cwd (join base p)) = anchor (join cwd base) := by
  have hjoin := isAbsolute_join_of_relative hbase hp
  cases habsolute : isAbsolute base with
  | true =>
    rw [join, if_pos (hjoin.trans habsolute), join.eq_1 cwd, if_pos habsolute,
      anchor_join habsolute hp]
  | false => rw [anchor_join hcwd (hjoin.trans habsolute), anchor_join hcwd habsolute]

/-- A path that is written from a start directory has the components of the path again when it is
read from there. -/
lemma reduce_join_relativeTo (hcwd : isAbsolute cwd = true) (hstart : start ≠ []) (p : Path) :
    reduce true (components (join cwd (join start (relativeTo cwd start p))))
      = components (absolute cwd p) := by
  let root := components (absolute cwd start)
  let goal := components (absolute cwd p)
  have hroot : root = reduce true (components (join cwd start)) := components_absolute hcwd start
  have hgoal : above ∉ goal.drop (commonLength root goal) := by
    intro hmem
    have hproper : ∀ c ∈ goal, IsProper c := by
      rw [show goal = _ from components_absolute hcwd p]
      exact reduce_proper (areParts_components _)
    exact above_not_mem_of_proper hproper (List.mem_of_mem_drop hmem)
  have hrelative : components (relativeTo cwd start p)
      = List.replicate (root.length - commonLength root goal) above
        ++ goal.drop (commonLength root goal) := components_ofComponents (areParts_upAndDown _ _ _)
  rw [components_join_join (isAbsolute_relativeTo cwd start p) hstart, hrelative,
    reduce_append_replicate (areParts_components _) hgoal, ← hroot,
    Nat.sub_sub_self (commonLength_le root goal), take_commonLength, List.take_append_drop]

/-- A path that is written from a start directory leads to its goal again when it is read from
there, exactly if the two begin alike. -/
lemma absolute_join_relativeTo_iff (hcwd : isAbsolute cwd = true) (hstart : start ≠ []) :
    absolute cwd (join start (relativeTo cwd start p)) = absolute cwd p ↔
      anchor (absolute cwd p) = anchor (absolute cwd start) := by
  have hanchor : anchor (absolute cwd (join start (relativeTo cwd start p)))
      = anchor (absolute cwd start) := by
    rw [anchor_absolute hcwd, anchor_absolute hcwd,
      anchor_join_join hcwd (isAbsolute_relativeTo cwd start p) hstart]
  constructor
  · intro h
    rw [← h, hanchor]
  · intro h
    rw [absolute_eq hcwd, reduce_join_relativeTo hcwd hstart, components_absolute hcwd,
      ← anchor_absolute hcwd, hanchor, ← h, anchor_absolute hcwd, ← absolute_eq hcwd]

/-- An absolute path begins in one of two ways. -/
lemma anchor_eq_iff (hp : isAbsolute p = true) (hq : isAbsolute q = true) :
    anchor p = anchor q ↔ (anchor p = .doubleRoot ↔ anchor q = .doubleRoot) := by
  have hp' := anchor_ne_relative_iff.2 hp
  have hq' := anchor_ne_relative_iff.2 hq
  cases hanchor : anchor p <;> cases hanchor' : anchor q <;> simp_all

end Path

/-! ### Documents -/

/-- The directory from which a document shows paths. -/
def Document.root (d : Document) : Path := if d.rootDir = [] then Path.here else d.rootDir

/-- What a path that a document shows stands for. -/
def Document.named (cwd : Path) (d : Document) (shown : Path) : Path :=
  Path.absolute cwd (Path.join d.root shown)

namespace Document

variable {cwd p : Path} {d : Document}

lemma root_ne_nil (d : Document) : d.root ≠ [] := by
  rw [root]
  split
  · simp [Path.here]
  · assumption

lemma relative_eq (hp : p ≠ []) : d.relative cwd p = Path.relativeTo cwd d.root p := by
  rw [relative, if_neg hp]
  rfl

/-- A shown path stands for the path that is shown, exactly if this one and the root both begin
with exactly two separators, or neither does. -/
lemma named_relative_iff (hcwd : Path.isAbsolute cwd = true) (hp : p ≠ []) :
    d.named cwd (d.relative cwd p) = Path.absolute cwd p ↔
      (Path.anchor (Path.absolute cwd p) = .doubleRoot ↔
        Path.anchor (Path.absolute cwd d.root) = .doubleRoot) := by
  rw [named, relative_eq hp, Path.absolute_join_relativeTo_iff hcwd d.root_ne_nil]
  exact Path.anchor_eq_iff (Path.isNormal_absolute hcwd p).1 (Path.isNormal_absolute hcwd _).1

/-- A document further up is known by its normal path. -/
lemma isNormal_of_mem_ancestors (hcwd : Path.isAbsolute cwd = true) (hp : p ∈ d.ancestors cwd) :
    Path.IsNormal p := by
  obtain ⟨q, -, rfl⟩ := List.mem_map.1 hp
  exact Path.isNormal_absolute hcwd q

end Document

namespace Include

/-- What diagnostics show of paths.

Take any path that is not empty, and no matter whether it, the current directory and the root
directory are normal: the path that a document shows for it, read from the root directory, stands
for the same absolute path, exactly if this path and the absolute path of the root both begin with
exactly two separators, or neither does.

So a recursive include, which is raised if the first existing candidate of a spec is a document
further up, shows the path of this one and, if the document has a file, that of the document
itself. -/
theorem recursiveInclude_names (ctx : Context) (hcwd : Path.isAbsolute ctx.cwd = true)
    (d : Document) :
    let isDouble := fun p => Path.anchor p = Path.Anchor.doubleRoot
    let root := Path.absolute ctx.cwd d.root
    let named := d.named ctx.cwd
    (∀ p, p ≠ [] → (named (d.relative ctx.cwd p) = Path.absolute ctx.cwd p ↔
        (isDouble (Path.absolute ctx.cwd p) ↔ isDouble root))) ∧
      ∀ spec including ancestor,
        (resolve ctx d spec).outcome
            = .error (.ofProblem (.recursiveInclude including ancestor)) →
          (∃ before path, StopsAt ctx.store (candidates ctx.settings ctx.cwd d spec) before path
              (.ok true) ∧ path ∈ d.ancestors ctx.cwd ∧
              (named ancestor = path ↔ (isDouble path ↔ isDouble root))) ∧
            (d.file ≠ [] → (named including = Path.absolute ctx.cwd d.file ↔
              (isDouble (Path.absolute ctx.cwd d.file) ↔ isDouble root))) ∧
            (d.file = [] → including = []) := by
  intro isDouble root named
  have hnamed : ∀ p, p ≠ [] → (named (d.relative ctx.cwd p) = Path.absolute ctx.cwd p ↔
      (isDouble (Path.absolute ctx.cwd p) ↔ isDouble root)) := fun p hp =>
    Document.named_relative_iff hcwd hp
  refine ⟨hnamed, fun spec including ancestor h => ?_⟩
  obtain ⟨before, path, hstops, hopen, rfl, rfl⟩ := resolve_eq_recursive_iff.1 h
  have hnormal := Document.isNormal_of_mem_ancestors hcwd hopen
  have hne : path ≠ [] := by
    rintro rfl
    exact absurd hnormal.1 (by decide)
  have hself : Path.absolute ctx.cwd path = path := Path.absolute_of_isNormal hnormal
  refine ⟨⟨before, path, hstops, hopen, ?_⟩, hnamed d.file, fun hfile => ?_⟩
  · have hpath := hnamed path hne
    rwa [hself] at hpath
  · rw [Document.relative, if_pos hfile]

/-- A document beside the root directory that includes itself. -/
theorem recursiveInclude_names_of_way_around :
    let m : MemoryStore := ⟨[("/site/a.kit".toList, [])], []⟩
    let ctx : Context := ⟨m.toStore, {}, "/site".toList, Codec.builtIn⟩
    let d : Document :=
      { text := [], file := "./a.kit".toList, rootDir := "docs/x".toList, parents := [] }
    (resolve ctx d "a".toList).outcome
        = .error (.ofProblem (.recursiveInclude "../../a.kit".toList "../../a.kit".toList)) ∧
      d.ancestors ctx.cwd = ["/site/a.kit".toList] ∧
      d.named ctx.cwd "../../a.kit".toList = "/site/a.kit".toList := by
  intro m ctx d
  have hcwd : Path.isAbsolute ctx.cwd = true := by decide
  have hraised : (resolve ctx d "a".toList).outcome
      = .error (.ofProblem (.recursiveInclude "../../a.kit".toList "../../a.kit".toList)) := by
    decide +kernel
  have hfile : Path.absolute ctx.cwd d.file = "/site/a.kit".toList := by decide +kernel
  have halike : Path.anchor (Path.absolute ctx.cwd d.file) = .doubleRoot ↔
      Path.anchor (Path.absolute ctx.cwd d.root) = .doubleRoot := by decide +kernel
  have hnames := (recursiveInclude_names ctx hcwd d).2 "a".toList "../../a.kit".toList
    "../../a.kit".toList hraised
  refine ⟨hraised, by decide +kernel, ?_⟩
  rw [← hfile]
  exact (hnames.2.1 (by simp [d])).2 halike

end Include

end CommentMarkup
