/-
# Runs one after another

A run is what a step yields together with the events on the way.  This file takes apart the
outcome of one run after another (`bind_eq_ok_iff`, `bind_eq_error_iff`) and of a step for
every item of a list: such a run fails exactly where the first of its items fails
(`forEach_eq_error_iff`), and it depends on the step only through the items that are begun
(`forEach_congr`).
-/
import CommentMarkup.Include
import Mathlib.Data.List.Forall2
import Mathlib.Tactic.Lemma

namespace CommentMarkup

/-- Whether something yields a given result can be seen from its outcome. -/
instance decidableEqOk {ε α : Type} [DecidableEq α] (x : Except ε α) (a : α) :
    Decidable (x = .ok a) :=
  match x with
  | .ok b => decidable_of_iff (b = a) (by simp)
  | .error _ => .isFalse (by simp)

/-- Whether something fails in a given way can be seen from its outcome. -/
instance decidableEqError {ε α : Type} [DecidableEq ε] (x : Except ε α) (e : ε) :
    Decidable (x = .error e) :=
  match x with
  | .ok _ => .isFalse (by simp)
  | .error e' => decidable_of_iff (e' = e) (by simp)

namespace Run

variable {α β : Type}

@[simp] lemma outcome_ok (a : α) : (ok a).outcome = .ok a := rfl

@[simp] lemma outcome_pure (a : α) : (pure a : Run α).outcome = .ok a := rfl

@[simp] lemma outcome_fail (f : Failure) : (fail f : Run α).outcome = .error f := rfl

@[simp] lemma outcome_emit (e : Event) : (emit e).outcome = .ok () := rfl

lemma bind_of_ok {r : Run α} {a : α} (h : r.outcome = .ok a) (f : α → Run β) :
    r >>= f = ⟨(f a).outcome, r.events ++ (f a).events⟩ := by
  change andThen r f = _
  simp [andThen, h]

lemma bind_of_error {r : Run α} {e : Failure} (h : r.outcome = .error e) (f : α → Run β) :
    r >>= f = ⟨.error e, r.events⟩ := by
  change andThen r f = _
  simp [andThen, h]

lemma bind_eq_ok_iff {r : Run α} {f : α → Run β} {b : β} :
    (r >>= f).outcome = .ok b ↔ ∃ a, r.outcome = .ok a ∧ (f a).outcome = .ok b := by
  cases h : r.outcome with
  | ok a => simp [bind_of_ok h]
  | error e => simp [bind_of_error h]

lemma bind_eq_error_iff {r : Run α} {f : α → Run β} {e : Failure} :
    (r >>= f).outcome = .error e ↔
      r.outcome = .error e ∨ ∃ a, r.outcome = .ok a ∧ (f a).outcome = .error e := by
  cases h : r.outcome with
  | ok a => simp [bind_of_ok h]
  | error e' => simp [bind_of_error h]

lemma bind_congr {r : Run α} {f g : α → Run β} (h : ∀ a, r.outcome = .ok a → f a = g a) :
    r >>= f = r >>= g := by
  cases hr : r.outcome with
  | ok a => rw [bind_of_ok hr, bind_of_ok hr, h a hr]
  | error e => rw [bind_of_error hr, bind_of_error hr]

/-! ### A step for every item -/

lemma forEach_cons (f : α → Run β) (a : α) (rest : List α) :
    forEach f (a :: rest) = f a >>= fun b => forEach f rest >>= fun bs => pure (b :: bs) := rfl

lemma forEach_cons_eq_ok_iff {f : α → Run β} {a : α} {rest : List α} {bs : List β} :
    (forEach f (a :: rest)).outcome = .ok bs ↔
      ∃ b later, (f a).outcome = .ok b ∧ (forEach f rest).outcome = .ok later ∧
        bs = b :: later := by
  simp only [forEach_cons, bind_eq_ok_iff, outcome_pure, Except.ok.injEq]
  constructor
  · rintro ⟨b, hb, later, hlater, rfl⟩
    exact ⟨b, later, hb, hlater, rfl⟩
  · rintro ⟨b, later, hb, hlater, rfl⟩
    exact ⟨b, hb, later, hlater, rfl⟩

/-- A step for every item succeeds exactly if it does for each of them. -/
lemma forEach_eq_ok_iff {f : α → Run β} {as : List α} {bs : List β} :
    (forEach f as).outcome = .ok bs ↔
      List.Forall₂ (fun a b => (f a).outcome = .ok b) as bs := by
  induction as generalizing bs with
  | nil => simp [forEach, eq_comm]
  | cons a rest ih =>
    simp only [forEach_cons_eq_ok_iff, List.forall₂_cons_left_iff, ih]

/-- A step for every item of two lists, one behind the other. -/
lemma forEach_append_eq_ok_iff {f : α → Run β} {first later : List α} {bs : List β} :
    (forEach f (first ++ later)).outcome = .ok bs ↔
      ∃ xs ys, (forEach f first).outcome = .ok xs ∧ (forEach f later).outcome = .ok ys ∧
        bs = xs ++ ys := by
  induction first generalizing bs with
  | nil =>
    have hnil : (forEach f []).outcome = .ok [] := rfl
    simp [hnil]
  | cons a rest ih =>
    simp only [List.cons_append, forEach_cons_eq_ok_iff, ih]
    constructor
    · rintro ⟨b, _, hb, ⟨xs, ys, hxs, hys, rfl⟩, rfl⟩
      exact ⟨b :: xs, ys, ⟨b, xs, hb, hxs, rfl⟩, hys, rfl⟩
    · rintro ⟨_, ys, ⟨b, xs, hb, hxs, rfl⟩, hys, rfl⟩
      exact ⟨b, xs ++ ys, hb, ⟨xs, ys, hxs, hys, rfl⟩, rfl⟩

/-- Whatever a step for every item yields, it yields for one of them. -/
lemma exists_of_mem_forEach {f : α → Run β} {as : List α} {bs : List β}
    (h : (forEach f as).outcome = .ok bs) {b : β} (hb : b ∈ bs) :
    ∃ a ∈ as, (f a).outcome = .ok b := by
  induction as generalizing bs with
  | nil =>
    have hbs : [] = bs := by simpa [forEach] using h
    simp [← hbs] at hb
  | cons a rest ih =>
    obtain ⟨first, later, hfirst, hlater, rfl⟩ := forEach_cons_eq_ok_iff.1 h
    rcases List.mem_cons.1 hb with rfl | hb
    · exact ⟨a, List.mem_cons_self, hfirst⟩
    · obtain ⟨a', ha', hf⟩ := ih hlater hb
      exact ⟨a', List.mem_cons_of_mem _ ha', hf⟩

/-- A step for every item fails as its first failing item does, and only if all items before
that one have succeeded. -/
lemma forEach_eq_error_iff {f : α → Run β} {as : List α} {e : Failure} :
    (forEach f as).outcome = .error e ↔
      ∃ before a after, as = before ++ a :: after ∧
        (∃ bs, (forEach f before).outcome = .ok bs) ∧ (f a).outcome = .error e := by
  induction as with
  | nil => simp [forEach]
  | cons a rest ih =>
    constructor
    · intro h
      rcases bind_eq_error_iff.1 h with h | ⟨b, hb, h⟩
      · exact ⟨[], a, rest, rfl, ⟨[], rfl⟩, h⟩
      · rcases bind_eq_error_iff.1 h with h | ⟨later, -, h⟩
        · obtain ⟨before, a', after, rfl, ⟨bs, hbs⟩, ha'⟩ := ih.1 h
          exact ⟨a :: before, a', after, rfl,
            ⟨b :: bs, forEach_cons_eq_ok_iff.2 ⟨b, bs, hb, hbs, rfl⟩⟩, ha'⟩
        · simp at h
    · rintro ⟨before, a', after, heq, ⟨bs, hbs⟩, ha'⟩
      rw [forEach_cons, bind_eq_error_iff]
      cases before with
      | nil =>
        obtain ⟨rfl, rfl⟩ := List.cons.inj heq
        exact Or.inl ha'
      | cons x more =>
        obtain ⟨rfl, rfl⟩ := List.cons.inj heq
        obtain ⟨b, later, hb, hlater, -⟩ := forEach_cons_eq_ok_iff.1 hbs
        refine Or.inr ⟨b, hb, bind_eq_error_iff.2 (Or.inl ?_)⟩
        exact ih.2 ⟨more, a', after, rfl, ⟨later, hlater⟩, ha'⟩

/-- Two steps do the same for every item if they agree on the items that are begun. -/
lemma forEach_congr {f g : α → Run β} {as : List α}
    (h : ∀ before a after, as = before ++ a :: after →
      (∃ bs, (forEach f before).outcome = .ok bs) → f a = g a) :
    forEach f as = forEach g as := by
  induction as with
  | nil => rfl
  | cons a rest ih =>
    have ha : f a = g a := h [] a rest rfl ⟨[], rfl⟩
    rw [forEach_cons, forEach_cons, ← ha]
    refine bind_congr fun b hb => ?_
    rw [ih fun before a' after heq ⟨bs, hbs⟩ => ?_]
    exact h (a :: before) a' after (by rw [heq]; rfl)
      ⟨b :: bs, forEach_cons_eq_ok_iff.2 ⟨b, bs, hb, hbs, rfl⟩⟩

/-- A step for every item that succeeds makes the events of all steps, in order. -/
lemma forEach_of_ok {f : α → Run β} {as : List α} {bs : List β}
    (h : List.Forall₂ (fun a b => (f a).outcome = .ok b) as bs) :
    forEach f as = ⟨.ok bs, as.flatMap fun a => (f a).events⟩ := by
  induction h with
  | nil => rfl
  | cons hfirst _ ih =>
    rw [forEach_cons, bind_of_ok hfirst, ih, bind_of_ok rfl, List.flatMap_cons]
    exact congrArg (Run.mk _) (congrArg _ (List.append_nil _))

/-- A step for every item that fails makes the events up to those of the item that fails. -/
lemma forEach_of_error {f : α → Run β} {before after : List α} {a : α} {bs : List β} {e : Failure}
    (hbefore : List.Forall₂ (fun a b => (f a).outcome = .ok b) before bs)
    (ha : (f a).outcome = .error e) :
    forEach f (before ++ a :: after)
      = ⟨.error e, (before ++ [a]).flatMap fun a => (f a).events⟩ := by
  induction hbefore with
  | nil =>
    rw [List.nil_append, forEach_cons, bind_of_error ha]
    simp
  | cons hfirst _ ih =>
    rw [List.cons_append, forEach_cons, bind_of_ok hfirst, ih, bind_of_error rfl]
    rfl

/-- A step either succeeds for every item of a list, or fails for a first one. -/
lemma forall₂_or_first_error (f : α → Run β) (as : List α) :
    (∃ bs, List.Forall₂ (fun a b => (f a).outcome = .ok b) as bs) ∨
      ∃ before a after bs e, as = before ++ a :: after ∧
        List.Forall₂ (fun a b => (f a).outcome = .ok b) before bs ∧ (f a).outcome = .error e := by
  cases h : (forEach f as).outcome with
  | ok bs => exact Or.inl ⟨bs, forEach_eq_ok_iff.1 h⟩
  | error e =>
    obtain ⟨before, a, after, hsplit, ⟨bs, hbefore⟩, ha⟩ := forEach_eq_error_iff.1 h
    exact Or.inr ⟨before, a, after, bs, e, hsplit, forEach_eq_ok_iff.1 hbefore, ha⟩

end Run

end CommentMarkup
