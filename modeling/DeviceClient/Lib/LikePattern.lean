import Mathlib.Data.List.Infix

/-!
# LIKE patterns

Patterns with a character for any run of characters and one for any single character.
Every other character of a pattern stands for the characters that fold to the same one.

* `Lib.like`: a pattern takes a text.
* `Lib.like_append_many_of_prefix`: a text is taken by each of its beginnings.
* `Lib.like_append_many_iff_of_literal`: without wildcards, a beginning is matched up to folding.
-/

namespace Lib

/-- The two wildcards, and the folding under which characters are compared. -/
structure LikeSyntax (α : Type) where
  many : α
  one : α
  fold : α → α

variable {α : Type} [DecidableEq α]

def like (x : LikeSyntax α) : List α → List α → Bool
  | [], s => s.isEmpty
  | p :: ps, s =>
    if p = x.many then s.tails.any fun t => like x ps t
    else
      match s with
      | [] => false
      | c :: cs => (p = x.one || x.fold p = x.fold c) && like x ps cs

variable {x : LikeSyntax α}

@[simp] theorem like_nil (s : List α) : like x [] s = s.isEmpty := rfl

theorem like_cons_many {ps s : List α} :
    like x (x.many :: ps) s = true ↔ ∃ t, t <:+ s ∧ like x ps t = true := by
  have hany : like x (x.many :: ps) s = s.tails.any fun t => like x ps t := by
    cases s <;> exact if_pos rfl
  rw [hany, List.any_eq_true]
  constructor
  · rintro ⟨t, ht, hlike⟩
    exact ⟨t, (List.mem_tails t s).1 ht, hlike⟩
  · rintro ⟨t, ht, hlike⟩
    exact ⟨t, (List.mem_tails t s).2 ht, hlike⟩

theorem like_many (s : List α) : like x [x.many] s = true :=
  like_cons_many.2 ⟨[], List.nil_suffix, rfl⟩

theorem like_cons_nil {p : α} {ps : List α} (hp : p ≠ x.many) : like x (p :: ps) [] = false :=
  if_neg hp

theorem like_cons_cons {p c : α} {ps cs : List α} (hp : p ≠ x.many) :
    like x (p :: ps) (c :: cs) = true ↔ (p = x.one ∨ x.fold p = x.fold c) ∧ like x ps cs = true := by
  have hlike : like x (p :: ps) (c :: cs) =
      ((p = x.one || x.fold p = x.fold c) && like x ps cs) := if_neg hp
  simp [hlike]

/-- Also a wildcard stands for itself. -/
theorem like_cons_self (p : α) {ps cs : List α} (h : like x ps cs = true) :
    like x (p :: ps) (p :: cs) = true := by
  by_cases hp : p = x.many
  · rw [hp]
    exact like_cons_many.2 ⟨cs, List.suffix_cons _ cs, h⟩
  · exact (like_cons_cons hp).2 ⟨Or.inr rfl, h⟩

theorem like_append_many_of_prefix {p s : List α} (h : p <+: s) :
    like x (p ++ [x.many]) s = true := by
  rcases h with ⟨t, rfl⟩
  induction p with
  | nil => exact like_many t
  | cons c p ih => exact like_cons_self c ih

/-- No character of the pattern is a wildcard. -/
def LikeSyntax.Literal (x : LikeSyntax α) (p : List α) : Prop := ∀ c ∈ p, c ≠ x.many ∧ c ≠ x.one

instance (p : List α) : Decidable (x.Literal p) := List.decidableBAll _ _

theorem like_append_many_iff_of_literal {p s : List α} (hp : x.Literal p) :
    like x (p ++ [x.many]) s = true ↔ p.map x.fold <+: s.map x.fold := by
  induction p generalizing s with
  | nil =>
    rw [List.nil_append, List.map_nil]
    exact iff_of_true (like_many s) List.nil_prefix
  | cons c p ih =>
    have hc : c ≠ x.many ∧ c ≠ x.one := hp c List.mem_cons_self
    have htail : x.Literal p := fun d hd => hp d (List.mem_cons_of_mem c hd)
    cases s with
    | nil =>
      rw [List.cons_append, like_cons_nil hc.1]
      simp
    | cons d s =>
      rw [List.cons_append, like_cons_cons hc.1, ih htail, List.map_cons, List.map_cons,
        List.cons_prefix_cons]
      exact and_congr_left fun _ => or_iff_right hc.2

end Lib
