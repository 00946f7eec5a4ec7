/-
# Scopes

A scope gives variables their values while one document is compiled.  A name that is given
the nil sentinel stays defined, with the empty text as its value.
-/
import CommentMarkup.Diagnostic

namespace CommentMarkup

/-- The variables of a document, each name once, in the order of their first definition. -/
structure Scope where
  /-- The names and their values. -/
  entries : List (Text × Text)
deriving DecidableEq, Repr

namespace Scope

/-- The scope without variables. -/
def empty : Scope := ⟨[]⟩

/-- The value of a name, if it is defined. -/
def find? (s : Scope) (name : Text) : Option Text := s.entries.lookup name

/-- Whether a name is defined. -/
def defines (s : Scope) (name : Text) : Bool := (s.find? name).isSome

/-- Replaces the value of a name in a list of entries, or adds the name at the end. -/
def putEntry (name value : Text) : List (Text × Text) → List (Text × Text)
  | [] => [(name, value)]
  | (n, v) :: rest =>
    if name = n then (n, value) :: rest else (n, v) :: putEntry name value rest

/-- Gives a name a value. -/
def put (s : Scope) (name value : Text) : Scope := ⟨putEntry name value s.entries⟩

/-- The scope of a list of names and values; the last value of a name counts. -/
def ofList (entries : List (Text × Text)) : Scope :=
  entries.foldl (fun s e => s.put e.1 e.2) empty

/-- What a definition does: it gives a name a value, where the nil sentinel stands for the
empty text. -/
def define (s : Scope) (nilSentinel name value : Text) : Scope :=
  s.put name (if value = nilSentinel then [] else value)

/-- What a reference yields: the value of its name, or nothing at all for an optional
reference to an undefined name. -/
def resolve (s : Scope) (name : Text) (optional : Bool) : Except Problem Text :=
  match s.find? name with
  | some value => .ok value
  | none => if optional then .ok [] else .error (.undefinedVariable name)

/-- The value of a name in a list of entries after a replacement. -/
theorem lookup_putEntry (name value n : Text) (entries : List (Text × Text)) :
    (putEntry name value entries).lookup n =
      if n = name then some value else entries.lookup n := by
  induction entries with
  | nil => by_cases h : n = name <;> simp [putEntry, List.lookup_cons, h, beq_eq_false_iff_ne.2]
  | cons e rest ih =>
    obtain ⟨m, v⟩ := e
    simp only [putEntry]
    split
    · next hm =>
      -- the entry at the head is the one that is replaced
      subst hm
      by_cases h : n = name
      · simp [h]
      · simp [List.lookup_cons, h, beq_eq_false_iff_ne.2 h]
    · next hm =>
      -- the entry at the head stays
      by_cases h : n = m
      · subst h
        simp [Ne.symm hm]
      · simp [List.lookup_cons, beq_eq_false_iff_ne.2 h, ih]

/-- A name that has been given a value has it; all other names keep theirs. -/
theorem find?_put (s : Scope) (name value n : Text) :
    (s.put name value).find? n = if n = name then some value else s.find? n :=
  lookup_putEntry name value n s.entries

end Scope

end CommentMarkup
