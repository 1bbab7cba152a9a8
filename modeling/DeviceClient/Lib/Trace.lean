import Mathlib.Data.List.Basic

/-!
# Traces with a guard between two kinds of entries

A trace is the list of what has happened so far, oldest first. `Guarded p q r`
says that between an entry with `p` and a later one with `q` there is one with
`r`; an entry with `p` after which no `r` has come is still open.

* `Lib.guarded_append`: an entry that is not a `q` while something is open
  keeps a trace guarded.
* `Lib.open_append`: what is open after one more entry.
-/

namespace Lib

variable {α : Type*} {p q r : α → Prop}

/-- Some entry with `p` has no later entry with `r`. -/
def Open (p r : α → Prop) (l : List α) : Prop :=
  ∃ l₁ a l₂, l = l₁ ++ a :: l₂ ∧ p a ∧ ∀ c ∈ l₂, ¬ r c

/-- Between an entry with `p` and a later one with `q` there is one with `r`. -/
def Guarded (p q r : α → Prop) (l : List α) : Prop :=
  ∀ l₁ a l₂ b l₃, l = l₁ ++ a :: (l₂ ++ b :: l₃) → p a → q b → ∃ c ∈ l₂, r c

theorem not_open_nil : ¬ Open p r ([] : List α) := by
  rintro ⟨l₁, a, l₂, hl, _, _⟩
  exact List.append_ne_nil_of_right_ne_nil l₁ (List.cons_ne_nil a l₂) hl.symm

theorem guarded_nil : Guarded p q r ([] : List α) := by
  intro l₁ a l₂ b l₃ hl _ _
  exact absurd hl.symm (List.append_ne_nil_of_right_ne_nil l₁ (List.cons_ne_nil a _))

/-- The newest entry opens, or it leaves open what was. -/
theorem open_append {l : List α} {b : α} (h : Open p r (l ++ [b])) :
    p b ∨ (Open p r l ∧ ¬ r b) := by
  rcases h with ⟨l₁, a, l₂, hl, hp, hr⟩
  rcases List.eq_nil_or_concat' l₂ with rfl | ⟨l₂', c, rfl⟩
  · -- the open entry is the newest one
    left
    have hlast := (List.append_inj' hl rfl).2
    have hb : b = a := List.head_eq_of_cons_eq hlast
    rwa [hb]
  · right
    have hl' : l ++ [b] = (l₁ ++ a :: l₂') ++ [c] := by
      rw [hl]
      simp
    have hinit := (List.append_inj' hl' rfl).1
    have hb : b = c := List.head_eq_of_cons_eq (List.append_inj' hl' rfl).2
    refine ⟨⟨l₁, a, l₂', hinit, hp, fun x hx => hr x ?_⟩, ?_⟩
    · exact List.mem_append_left [c] hx
    · rw [hb]
      exact hr c (List.mem_append_right l₂' List.mem_cons_self)

/-- One more entry: it may be a `q` only if nothing is open. -/
theorem guarded_append {l : List α} {b : α} (h : Guarded p q r l) (hb : q b → ¬ Open p r l) :
    Guarded p q r (l ++ [b]) := by
  intro l₁ a l₂ c l₃ hl hp hq
  rcases List.eq_nil_or_concat' l₃ with rfl | ⟨l₃', d, rfl⟩
  · -- the newest entry is the guarded one
    have hl' : l ++ [b] = (l₁ ++ a :: l₂) ++ [c] := by
      rw [hl]
      simp
    have hinit := (List.append_inj' hl' rfl).1
    have hbc : b = c := List.head_eq_of_cons_eq (List.append_inj' hl' rfl).2
    by_contra hnone
    refine hb (hbc ▸ hq) ⟨l₁, a, l₂, hinit, hp, fun x hx hr => ?_⟩
    exact hnone ⟨x, hx, hr⟩
  · have hl' : l ++ [b] = (l₁ ++ a :: (l₂ ++ c :: l₃')) ++ [d] := by
      rw [hl]
      simp
    have hinit := (List.append_inj' hl' rfl).1
    exact h l₁ a l₂ c l₃' hinit hp hq

end Lib
